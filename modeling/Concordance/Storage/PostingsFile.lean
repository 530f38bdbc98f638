import Concordance.Posting.Postings
import Concordance.Storage.TokenDirectory

/-!
# Postings files

The posting lists of an index stand one after another in one file, each at a
place that the token directory knows.
-/

namespace Concordance

/-- The bytes of the posting lists of an index. -/
structure PostingsFile where
  bytes : Bytes := []
deriving DecidableEq, Repr

namespace PostingsFile

/-- The multiple of bytes at which every list begins. -/
def alignment : Nat := 64

/-- The contents of a file. A missing file is as good as an empty one. -/
def ofFile (file : Option Bytes) : PostingsFile :=
  ⟨file.getD []⟩

/-- The number of bytes. -/
def size (file : PostingsFile) : Nat :=
  file.bytes.length

/-- The list at a place, cut at the last whole word that lies inside the file. -/
def read (file : PostingsFile) (entry : TokenEntry) : Postings :=
  Postings.ofBytes (file.bytes.slice entry.start entry.length)

end PostingsFile

end Concordance
