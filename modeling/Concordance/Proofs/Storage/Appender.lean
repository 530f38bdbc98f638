import Concordance.Proofs.Storage.Disk
import Concordance.Storage.Appender

/-!
# What an appender has taken in

The bytes that an appender has taken in are those of its file, followed by those it holds back
(`Appender.Carries`). Longer runs of bytes pass it by only if nothing is held back before them, so
that no bytes change their order.
-/

namespace Concordance

open Attempt

namespace Disk

/-- Bytes that are written at the end of others are appended to them. -/
theorem overwrite_length (bytes written : Bytes) :
    overwrite bytes bytes.length written = bytes ++ written := by
  simp [overwrite]

end Disk

namespace Appender

variable {own : String → Prop} {name : String} {front taken bytes : Bytes}
  {appender after : Appender} {disk later : Disk} {result : Unit}

/-- An appender writes at the end of the file of a name, which is kept apart from others. -/
structure Fills (own : String → Prop) (name : String) (front : Bytes) (appender : Appender)
    (disk : Disk) : Prop where
  separate : Disk.Separate own disk
  leads : disk.names.find? name = some appender.file
  file : disk.file? name = some front
  written : appender.written = front.length

/-- An appender has taken in these bytes. -/
def Carries (own : String → Prop) (name : String) (taken : Bytes) (appender : Appender)
    (disk : Disk) : Prop :=
  ∃ front, Fills own name front appender disk ∧ front ++ appender.held = taken

/-- The length of an appender is that of what it has taken in. -/
theorem Carries.length_eq (h : Carries own name taken appender disk) :
    appender.length = taken.length := by
  obtain ⟨front, hfills, rfl⟩ := h
  rw [Appender.length, hfills.written, List.length_append]

/-- A new appender has taken in nothing. -/
theorem of_create (hseparate : Disk.Separate own disk) (hown : own name)
    (h : Yields (create name) disk appender later) : Carries own name [] appender later := by
  unfold create at h
  obtain ⟨file, created, hcreate, h⟩ := of_bind h
  obtain ⟨rfl, rfl⟩ := of_pure h
  obtain ⟨htouches, -, hname, hempty⟩ := Disk.of_create hseparate hown hcreate
  exact ⟨[], ⟨htouches.separate, hname, hempty, rfl⟩, rfl⟩

/-- Where an appender writes does not depend on the bytes that it holds back. -/
theorem Fills.hold (h : Fills own name front appender disk) (held : Bytes) :
    Fills own name front { appender with held } disk :=
  ⟨h.separate, h.leads, h.file, h.written⟩

/-- Bytes that are written at once are appended to the file. -/
theorem Fills.writeThrough (h : Fills own name front appender disk) (hown : own name)
    (hwrite : Yields (appender.writeThrough bytes) disk after later) :
    Fills own name (front ++ bytes) after later ∧ after.held = appender.held := by
  unfold Appender.writeThrough at hwrite
  obtain ⟨_, between, hwriteAt, hrest⟩ := of_bind hwrite
  obtain ⟨rfl, rfl⟩ := of_pure hrest
  obtain ⟨htouches, -, hnames, hfile⟩ := Disk.of_writeAt h.separate hown h.leads hwriteAt
  have hfront := h.file
  rw [Disk.file?_of_names h.leads] at hfront
  rw [Option.some.inj hfront, h.written, Disk.overwrite_length] at hfile
  refine ⟨⟨htouches.separate, hnames ▸ h.leads, hfile, ?_⟩, rfl⟩
  rw [List.length_append, ← h.written]

/-- When nothing is held back any more, the file has all the bytes. -/
theorem Carries.flush (h : Carries own name taken appender disk) (hown : own name)
    (hflush : Yields appender.flush disk after later) :
    Carries own name taken after later ∧ after.held = [] := by
  unfold Appender.flush at hflush
  split at hflush
  · rename_i hempty
    obtain ⟨rfl, rfl⟩ := of_pure hflush
    exact ⟨h, List.isEmpty_iff.1 hempty⟩
  · obtain ⟨written, between, hwrite, hrest⟩ := of_bind hflush
    obtain ⟨rfl, rfl⟩ := of_pure hrest
    obtain ⟨front, hfills, rfl⟩ := h
    obtain ⟨hfills', -⟩ := hfills.writeThrough hown hwrite
    exact ⟨⟨_, hfills'.hold [], List.append_nil _⟩, rfl⟩

/-- Bytes that are taken in come after all others. -/
theorem Carries.accept (h : Carries own name taken appender disk) (hown : own name)
    (hroom : bytes.length < capacity ∨ appender.held = [])
    (haccept : Yields (appender.accept bytes) disk after later) :
    Carries own name (taken ++ bytes) after later := by
  unfold Appender.accept at haccept
  obtain ⟨front, hfills, rfl⟩ := h
  split at haccept
  · obtain ⟨rfl, rfl⟩ := of_pure haccept
    exact ⟨front, hfills.hold _, (List.append_assoc _ _ _).symm⟩
  · rename_i hlong
    obtain ⟨hfills', hheld⟩ := hfills.writeThrough hown haccept
    have hnone := hroom.resolve_left hlong
    refine ⟨front ++ bytes, hfills', ?_⟩
    rw [hheld, hnone, List.append_nil, List.append_nil]

/-! ## Success -/

/-- An appender can be created. -/
theorem succeeds_create (name : String) : Disk.Succeeds (create name) :=
  (Disk.succeeds_create name).bind fun _ => Disk.succeeds_pure _

/-- Bytes can be written to the file. -/
theorem succeeds_writeThrough (appender : Appender) (bytes : Bytes) :
    Disk.Succeeds (appender.writeThrough bytes) :=
  (Disk.succeeds_writeAt _ _ _).bind fun _ => Disk.succeeds_pure _

/-- What is held back can be written to the file. -/
theorem succeeds_flush (appender : Appender) : Disk.Succeeds appender.flush := by
  unfold flush
  split
  · exact Disk.succeeds_pure appender
  · exact (appender.succeeds_writeThrough _).bind fun _ => Disk.succeeds_pure _

/-- Bytes can be accepted. -/
theorem succeeds_accept (appender : Appender) (bytes : Bytes) :
    Disk.Succeeds (appender.accept bytes) := by
  unfold accept
  split
  · exact Disk.succeeds_pure _
  · exact appender.succeeds_writeThrough bytes

end Appender
end Concordance
