import Concordance.Bytes
import Concordance.Failure
import Concordance.Table

/-!
# Disks

The disk holds the directory of one index. A name in the directory leads to a
file. A file that has lost its name still takes the bytes written to it, and a
name that is created again while its file is there leads to the same file, emptied.

Every use of the disk is an attempt, and the disk may refuse attempts: the `n`th
one fails without any effect if `refuses n`. What was done before a failure stays
done.
-/

namespace Concordance

/-- The number of a file. -/
abbrev FileId := Nat

/-- The directory of an index and the files it ever held. -/
structure Disk where
  /-- Whether the directory exists. -/
  present : Bool := false
  /-- The files in the directory, by name. -/
  names : Table FileId := {}
  /-- The bytes of all files, by number. -/
  files : Array Bytes := #[]
  /-- The number of attempts made so far. -/
  attempts : Nat := 0
  /-- Which attempts fail. -/
  refuses : Nat → Bool := fun _ => false

/-- By default a disk has no files. -/
instance : Inhabited Disk := ⟨{}⟩

/-- A computation that uses the disk and may fail, which does not undo what it did before. -/
abbrev OnDisk := ExceptT Failure (StateM Disk)

namespace Disk

/-- The bytes of a file by its name, if there is one. -/
def file? (disk : Disk) (name : String) : Option Bytes :=
  (disk.names.find? name).map fun file => disk.files.getD file []

/-- The names in the directory, ascending. -/
def fileNames (disk : Disk) : List String :=
  disk.names.keys

/-- Bytes with others written over them from a place on. A gap before this place is filled with
zeros. -/
def overwrite (bytes : Bytes) (place : Nat) (written : Bytes) : Bytes :=
  bytes.take place ++ List.replicate (place - bytes.length) 0 ++ written ++
    bytes.drop (place + written.length)

/-- Make an attempt to use the disk. -/
def attempt : OnDisk Unit := do
  let disk ← get
  set { disk with attempts := disk.attempts + 1 }
  if disk.refuses disk.attempts then throw .diskFault

/-- Create the directory unless it exists. -/
def createDirectory : OnDisk Unit := do
  attempt
  modify fun disk => { disk with present := true }

/-- Remove the directory with everything in it. -/
def removeDirectory : OnDisk Unit := do
  attempt
  let disk ← get
  if disk.present then set { disk with present := false, names := Table.empty }
  else throw .notFound

/-- Create an empty file under a name. -/
def create (name : String) : OnDisk FileId := do
  attempt
  let disk ← get
  if disk.present then
    match disk.names.find? name with
    | some file =>
        set { disk with files := disk.files.setIfInBounds file [] }
        pure file
    | none =>
        let file := disk.files.size
        set { disk with names := disk.names.insert name file, files := disk.files.push [] }
        pure file
  else throw .notFound

/-- Write bytes into a file from a place on. -/
def writeAt (file : FileId) (place : Nat) (bytes : Bytes) : OnDisk Unit := do
  attempt
  modify fun disk =>
    { disk with
      files := disk.files.modify file fun old => overwrite old place bytes }

/-- Create a file of these bytes. -/
def write (name : String) (bytes : Bytes) : OnDisk Unit := do
  let file ← create name
  writeAt file 0 bytes

/-- The bytes of a file. -/
def read (name : String) : OnDisk Bytes := do
  attempt
  match (← get).file? name with
  | some bytes => pure bytes
  | none => throw .notFound

/-- Remove a name from the directory. -/
def remove (name : String) : OnDisk Unit := do
  attempt
  let disk ← get
  if disk.names.contains name then set { disk with names := disk.names.erase name }
  else throw .notFound

/-- Remove a name from the directory if it is there. -/
def removeIfPresent (name : String) : OnDisk Unit := do
  if (← get).names.contains name then remove name

/-- The names in the directory, ascending. -/
def list : OnDisk (List String) := do
  attempt
  let disk ← get
  if disk.present then pure disk.fileNames else throw .notFound

end Disk

end Concordance
