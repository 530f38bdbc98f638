import Concordance.Json.Fields
import Concordance.Json.Parser
import Concordance.Searching.Settings
import Concordance.Failure
import Concordance.Text.Quoted

/-!
# Search settings as texts

Search settings are kept in JSON without the tokenizer, which has to be chosen anew
when they are read. They are also shown to users, with the name of the tokenizer.
-/

namespace Concordance

namespace SearchSettings

/-- Search settings in JSON. -/
def json (settings : SearchSettings) : String :=
  "\x7b\"force_naive_intersect\":" ++ toString settings.forceScalar ++ "\x7d"

/-- Search settings as they are shown. -/
def text (settings : SearchSettings) : String :=
  "SearcherConfig \x7b force_naive_intersect: " ++ toString settings.forceScalar ++
    ", tokenizer: " ++ Quoted.quote settings.tokenizer.name ++ " \x7d"

/-- The search settings that a JSON value describes. -/
def ofJson? (value : JsonValue) : Option SearchSettings :=
  match value.fields? ["force_naive_intersect"] with
  | some [force] => do
      let forceScalar ← force.toBool?
      pure { forceScalar }
  | _ => none

/-- Read search settings. -/
def parse (text : String) : Except Failure SearchSettings :=
  match (JsonValue.parse? text).bind ofJson? with
  | some settings => .ok settings
  | none => .error .malformedJson

end SearchSettings

end Concordance
