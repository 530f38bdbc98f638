import Concordance.Text.Case.Lowercase
import Concordance.Tokenizer.Tokenizer

/-!
# Gram tokenizers

The tokens are the grams of a text: all its runs of a fixed number of characters,
so that a run of tokens stands for a piece of the text. A variant leaves out the
grams that hold a breaking character, such as white space.
-/

namespace Concordance

/-- The settings of a tokenizer that leaves out grams with a breaking character. -/
structure GramSettings where
  size : Nat
  lowercase : Bool := true
  /-- The breaking characters, if it is not white space that breaks. -/
  breaking : Option (List Char) := none
deriving DecidableEq, Repr

namespace GramSettings

/-- Whether a character breaks. -/
def breaks (settings : GramSettings) (c : Char) : Bool :=
  match settings.breaking with
  | some chars => chars.contains c
  | none => isWhitespace c

end GramSettings

namespace Tokenizer

/-- The token of a gram. -/
def gram (lowercase : Bool) (window : List Char) : String :=
  String.ofList (if lowercase then window.flatMap lowerCharacter else window)

/-- The runs of `size` characters, from each place on. -/
def windows (size : Nat) : List Char → List (List Char)
  | [] => []
  | c :: rest =>
      let window := (c :: rest).take size
      if window.length < size then [] else window :: windows size rest

/-- The grams of a text that hold no breaking character. A run with a breaking character is left
behind together with all later runs that hold the same character. -/
def unbrokenGrams (settings : GramSettings) : List Char → List String
  | [] => []
  | c :: rest =>
      let window := (c :: rest).take settings.size
      if window.length < settings.size then []
      else
        match window.findIdx? settings.breaks with
        | some place => unbrokenGrams settings (rest.drop place)
        | none => gram settings.lowercase window :: unbrokenGrams settings rest
termination_by chars => chars.length
decreasing_by
  · simp only [List.length_drop, List.length_cons]; omega
  · simp only [List.length_cons]; omega

/-- The tokenizer of all grams. -/
def grams (size : Nat) (lowercase : Bool) : Except Failure Tokenizer :=
  if size = 0 then .error .emptyGram
  else
    .ok
      { name := "ngram"
        normalize := id
        tokenize := fun text => .ok ((windows size text.toList).map (gram lowercase)) }

/-- The tokenizer of the grams without a breaking character. -/
def breakingGrams (settings : GramSettings) : Except Failure Tokenizer :=
  if settings.size = 0 then .error .emptyGram
  else
    .ok
      { name := "breaking_ngram"
        normalize := id
        tokenize := fun text => .ok (unbrokenGrams settings text.toList) }

end Tokenizer

end Concordance
