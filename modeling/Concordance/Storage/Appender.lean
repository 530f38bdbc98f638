import Concordance.Storage.Disk

/-!
# Appenders

An appender writes to the end of a file. Bytes are held back until there are many
of them, and longer runs of bytes pass it by. What is held back must be flushed in
the end.
-/

namespace Concordance

/-- A file open for writing at its end. -/
structure Appender where
  file : FileId
  /-- The number of bytes written to the file. -/
  written : Nat := 0
  /-- The bytes held back. -/
  held : Bytes := []
deriving DecidableEq, Repr

namespace Appender

/-- The most bytes held back. -/
def capacity : Nat := 8192

/-- The number of bytes taken in. -/
def length (appender : Appender) : Nat :=
  appender.written + appender.held.length

/-- Open a new file. -/
def create (name : String) : OnDisk Appender := do
  let file ← Disk.create name
  pure { file }

/-- Whether bytes find room next to those held back. -/
def fits (appender : Appender) (bytes : Bytes) : Bool :=
  appender.held.length + bytes.length ≤ capacity

/-- Write bytes to the file at once. Nothing may be held back before them. -/
def writeThrough (appender : Appender) (bytes : Bytes) : OnDisk Appender := do
  Disk.writeAt appender.file appender.written bytes
  pure { appender with written := appender.written + bytes.length }

/-- Write what is held back to the file. -/
def flush (appender : Appender) : OnDisk Appender := do
  if appender.held.isEmpty then pure appender
  else
    let appender ← appender.writeThrough appender.held
    pure { appender with held := [] }

/-- Take in bytes for which there is room: hold them back, unless they are as many as can be held
back at all. -/
def accept (appender : Appender) (bytes : Bytes) : OnDisk Appender := do
  if bytes.length < capacity then pure { appender with held := appender.held ++ bytes }
  else appender.writeThrough bytes

end Appender

end Concordance
