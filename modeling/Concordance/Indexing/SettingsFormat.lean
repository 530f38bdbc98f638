import Concordance.Decimal.Shortest
import Concordance.Indexing.Settings
import Concordance.Json.Fields
import Concordance.Json.Parser
import Concordance.Text.Quoted

/-!
# Index settings as texts

Index settings are kept in JSON without the tokenizer, which has to be chosen anew
when they are read. The way of choosing common tokens is an object with the name of
the way and its value, if there is one. Settings are also shown to users, with the
name of the tokenizer.
-/

namespace Concordance

namespace CommonChoice

/-- The name of a way of choosing common tokens. -/
def name : CommonChoice → String
  | none => "None"
  | list _ => "List"
  | most _ => "FixedNum"
  | fraction _ => "Percentage"

/-- How fractions are laid out in JSON. -/
def jsonLayout : DecimalLayout := ⟨-4, 16⟩

/-- How fractions are laid out when they are shown. -/
def shownLayout : DecimalLayout := ⟨-3, 16⟩

/-- A fraction in JSON, which has no infinities and nothing that is not a number. -/
def fractionJson (part : Float) : String :=
  if part.isFinite then jsonLayout.floatText part else "null"

/-- A fraction as it is shown. -/
def fractionText (part : Float) : String :=
  if part.isNaN then "NaN"
  else if part.isInf then (if part < 0.0 then "-inf" else "inf")
  else shownLayout.floatText part

/-- A way of choosing common tokens in JSON. -/
def json (choice : CommonChoice) : String :=
  let value :=
    match choice with
    | none => ""
    | list tokens => ",\"value\":[" ++ ",".intercalate (tokens.map JsonValue.quote) ++ "]"
    | most count => ",\"value\":" ++ toString count
    | fraction part => ",\"value\":" ++ fractionJson part
  "\x7b\"type\":\"" ++ choice.name ++ "\"" ++ value ++ "\x7d"

/-- A way of choosing common tokens as it is shown. -/
def text (choice : CommonChoice) : String :=
  match choice with
  | none => choice.name
  | list tokens => choice.name ++ "([" ++ ", ".intercalate (tokens.map Quoted.quote) ++ "])"
  | most count => choice.name ++ "(" ++ toString count ++ ")"
  | fraction part => choice.name ++ "(" ++ fractionText part ++ ")"

/-- The name that a JSON value gives: a text, or an object that assigns nothing to the name. -/
def tagName? : JsonValue → Option String
  | .text name => some name
  | .object [(name, .null)] => some name
  | _ => Option.none

/-- The name and the value in a JSON value: an object with these members, or an array of both. -/
def tagged? : JsonValue → Option (String × Option JsonValue)
  | .object members => do
      let name ← tagName? (← JsonValue.member? members "type")
      if JsonValue.lacks members "value" then pure (name, Option.none)
      else
        let value ← JsonValue.member? members "value"
        pure (name, some value)
  | .array [tag, value] => do
      let name ← tagName? tag
      pure (name, some value)
  | _ => Option.none

/-- The way of choosing common tokens that a JSON value describes. -/
def ofJson? (value : JsonValue) : Option CommonChoice := do
  match ← tagged? value with
  | ("None", Option.none) => some none
  | ("None", some .null) => some none
  | ("List", some value) => value.toTexts?.map list
  | ("FixedNum", some value) => (value.toNat? UInt64.size).map most
  | ("Percentage", some value) => value.toFloat?.map fraction
  | _ => Option.none

end CommonChoice

namespace IndexSettings

/-- Index settings in JSON. -/
def json (settings : IndexSettings) : String :=
  "\x7b\"batch_size\":" ++ toString settings.batchSize ++ ",\"common_tokens\":" ++
    settings.common.json ++ "\x7d"

/-- Index settings as they are shown. -/
def text (settings : IndexSettings) : String :=
  "IndexerConfig \x7b batch_size: " ++ toString settings.batchSize ++ ", common_tokens: " ++
    settings.common.text ++ ", tokenizer: " ++ Quoted.quote settings.tokenizer.name ++ " \x7d"

/-- The index settings that a JSON value describes. -/
def ofJson? (value : JsonValue) : Option IndexSettings :=
  match value.fields? ["batch_size", "common_tokens"] with
  | some [size, common] => do
      let batchSize ← size.toNat? UInt64.size
      let common ← CommonChoice.ofJson? common
      pure { batchSize, common }
  | _ => none

/-- Read index settings. -/
def parse (text : String) : Except Failure IndexSettings :=
  match (JsonValue.parse? text).bind ofJson? with
  | some settings => .ok settings
  | none => .error .malformedJson

end IndexSettings

end Concordance
