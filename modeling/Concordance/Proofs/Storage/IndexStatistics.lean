import Concordance.Proofs.Bytes
import Concordance.Proofs.Json.Parser
import Concordance.Storage.IndexStatistics

/-!
# Reading back the statistics

The two numbers of an index are read back from the file that was written
(`IndexStatistics.ofFile_text`).
-/

namespace Concordance
namespace IndexStatistics

variable (statistics : IndexStatistics)

/-- The object that the text of the file describes. -/
def members : List (String × JsonValue) :=
  [("TotalDocs", .number (JsonValue.whole statistics.documents.toNat)),
    ("TotalTokens", .number (JsonValue.whole statistics.tokens.toNat))]

/-- The statistics are written as an object of their two numbers. -/
theorem toList_text : statistics.text.toList =
    "\x7b\n  ".toList ++ (JsonValue.member "TotalDocs" statistics.documents.toNat ++
      (",\n  ".toList ++ (JsonValue.member "TotalTokens" statistics.tokens.toNat ++
        "\n\x7d".toList))) := by
  have hdigits : ∀ value : Nat, (toString value).toList = Nat.toDigits 10 value := by
    intro value
    rw [Nat.toString_eq_ofList_toDigits, String.toList_ofList]
  have hdocuments : toString statistics.documents = toString statistics.documents.toNat := rfl
  have htokens : toString statistics.tokens = toString statistics.tokens.toNat := rfl
  have hfirst : "\x7b\n  \"TotalDocs\": ".toList =
      "\x7b\n  ".toList ++ '"' :: ("TotalDocs".toList ++ ['"', ':', ' ']) := by decide
  have hsecond : ",\n  \"TotalTokens\": ".toList =
      ",\n  ".toList ++ '"' :: ("TotalTokens".toList ++ ['"', ':', ' ']) := by decide
  unfold text
  rw [String.toList_append, String.toList_append, String.toList_append, String.toList_append,
    hdocuments, htokens, hdigits, hdigits, hfirst, hsecond]
  simp only [JsonValue.member, List.append_assoc, List.cons_append, List.nil_append]

/-- The text of the file is an object with the two numbers. -/
theorem parse?_text : JsonValue.parse? statistics.text = some (.object statistics.members) := by
  obtain ⟨fuel, hfuel⟩ : ∃ fuel, statistics.text.toList.length = fuel + 3 := by
    rw [toList_text]
    exact ⟨_, rfl⟩
  have hlast : JsonValue.takeMembers (fuel + 2)
      ('\n' :: ' ' :: ' ' :: (JsonValue.member "TotalTokens" statistics.tokens.toNat ++
        "\n\x7d".toList)) =
        some ([("TotalTokens", .number (JsonValue.whole statistics.tokens.toNat))], []) := by
    rw [JsonValue.takeMembers_blank rfl, JsonValue.takeMembers_blank rfl,
      JsonValue.takeMembers_blank rfl]
    exact JsonValue.takeMembers_last (by decide)
      (JsonValue.endsNumber_cons (c := '\n') (by decide) ['}']) rfl
  have hmembers : JsonValue.takeMembers (fuel + 3)
      (JsonValue.member "TotalDocs" statistics.documents.toNat ++ ',' :: '\n' :: ' ' :: ' ' ::
        (JsonValue.member "TotalTokens" statistics.tokens.toNat ++ "\n\x7d".toList)) =
        some (statistics.members, []) :=
    JsonValue.takeMembers_member (by decide) (JsonValue.endsNumber_cons (by decide) _) rfl
      hlast
  have hvalue : JsonValue.takeValue (fuel + 4) statistics.text.toList =
      some (.object statistics.members, []) := by
    rw [toList_text, JsonValue.takeValue]
    exact congrArg (fun taken => taken >>= fun result => pure (JsonValue.object result.1, result.2))
      hmembers
  unfold JsonValue.parse?
  simp only [hfuel]
  rw [hvalue]
  rfl

/-- The fields of the object. -/
theorem fields?_members :
    (JsonValue.object statistics.members).fields? ["TotalDocs", "TotalTokens"] =
      some [.number (JsonValue.whole statistics.documents.toNat),
        .number (JsonValue.whole statistics.tokens.toNat)] := by
  simp [JsonValue.fields?, JsonValue.member?, members]

/-- An object of the two numbers is read as the statistics. -/
theorem ofJson?_members : ofJson? (.object statistics.members) = some statistics := by
  unfold ofJson?
  rw [fields?_members]
  simp only [JsonValue.toNat?_whole (UInt32.toNat_lt_size statistics.documents),
    JsonValue.toNat?_whole (UInt64.toNat_lt_size statistics.tokens), Option.bind_eq_bind,
    Option.bind_some]
  show some (IndexStatistics.mk (UInt32.ofNat _) (UInt64.ofNat _)) = _
  rw [UInt32.ofNat_toNat, UInt64.ofNat_toNat]

/-- The statistics are read back from the file that was written. -/
theorem ofFile_text : ofFile (some (Bytes.ofText statistics.text)) = statistics := by
  unfold ofFile
  simp only [Option.bind_eq_bind, Option.bind_some, Bytes.toText?_ofText, parse?_text,
    ofJson?_members, Option.getD_some]

end IndexStatistics
end Concordance
