import Concordance.Proofs.Success
import Concordance.Proofs.Table
import Concordance.Storage.Disk

/-!
# What uses of the disk leave behind

The files of some names are kept apart if no two of the names lead to the same file
(`Disk.Separate`). As long as they are, a use of one name changes nothing under the others
(`Disk.Touches`): not the file it leads to, and not the bytes there. This is told for every use of
the disk that succeeds. A use that fails changes nothing at all (`Disk.Same`).
-/

namespace Concordance
namespace Disk

open Attempt

variable {own : String → Prop} {disk later : Disk} {name : String}

/-! ## Names kept apart -/

/-- The names lead to files that exist, each to one of its own. -/
structure Separate (own : String → Prop) (disk : Disk) : Prop where
  inside : ∀ name file, own name → disk.names.find? name = some file → file < disk.files.size
  distinct : ∀ name other file, own name → own other → disk.names.find? name = some file →
    disk.names.find? other = some file → name = other

/-- At most one name was used, and the names are still kept apart. -/
structure Touches (own : String → Prop) (name : String) (disk later : Disk) : Prop where
  separate : Separate own later
  names : ∀ other, own other → other ≠ name → later.names.find? other = disk.names.find? other
  files : ∀ other, own other → other ≠ name → later.file? other = disk.file? other

/-- What changes nothing but one file in two steps changes no other one at all. -/
theorem Touches.trans {between : Disk} (hfirst : Touches own name disk between)
    (hsecond : Touches own name between later) : Touches own name disk later :=
  ⟨hsecond.separate,
    fun other hown hne => (hsecond.names other hown hne).trans (hfirst.names other hown hne),
    fun other hown hne => (hsecond.files other hown hne).trans (hfirst.files other hown hne)⟩

/-- Nothing but the number of attempts has changed. -/
structure Same (disk later : Disk) : Prop where
  present : later.present = disk.present
  names : later.names = disk.names
  files : later.files = disk.files

/-- What stays the same in two steps is the same. -/
theorem Same.trans {between : Disk} (hfirst : Same disk between) (hsecond : Same between later) :
    Same disk later :=
  ⟨hsecond.present.trans hfirst.present, hsecond.names.trans hfirst.names,
    hsecond.files.trans hfirst.files⟩

/-- On the same disk the same files are found. -/
theorem Same.file? (h : Same disk later) (name : String) : later.file? name = disk.file? name := by
  rw [Disk.file?, Disk.file?, h.names, h.files]

/-- On the same disk names are still kept apart. -/
theorem Same.separate (h : Same disk later) (hseparate : Separate own disk) :
    Separate own later := by
  refine ⟨?_, ?_⟩
  · intro name file hown hfile
    rw [h.names] at hfile
    rw [h.files]
    exact hseparate.inside name file hown hfile
  · intro name other file hown hother hfile hfile'
    rw [h.names] at hfile hfile'
    exact hseparate.distinct name other file hown hother hfile hfile'

/-- A disk that is the same was touched nowhere. -/
theorem Same.touches (h : Same disk later) (hseparate : Separate own disk) (name : String) :
    Touches own name disk later :=
  ⟨h.separate hseparate, fun other _ _ => by rw [h.names], fun other _ _ => h.file? other⟩

/-! ## Attempts -/

/-- An attempt that is granted leaves the disk as it was. -/
theorem of_attempt {result : Unit} (h : Yields attempt disk result later) : Same disk later := by
  unfold attempt at h
  replace h := of_get_bind h
  replace h := of_set_bind h
  by_cases hrefused : disk.refuses disk.attempts = true
  · rw [if_pos hrefused] at h
    exact (of_throw h).elim
  · rw [if_neg hrefused] at h
    obtain ⟨-, rfl⟩ := of_pure h
    exact ⟨rfl, rfl, rfl⟩

/-- An attempt that is refused leaves the disk as it was. -/
theorem fails_attempt {failure : Failure} (h : Fails attempt disk failure later) :
    Same disk later := by
  unfold attempt at h
  replace h := fails_of_get_bind h
  replace h := fails_of_set_bind h
  by_cases hrefused : disk.refuses disk.attempts = true
  · rw [if_pos hrefused] at h
    rw [fails_of_throw h]
    exact ⟨rfl, rfl, rfl⟩
  · rw [if_neg hrefused] at h
    exact (not_fails_pure h).elim

/-! ## Changing one file -/

/-- The file of a name has the bytes of its number. -/
theorem file?_of_names {file : FileId} (h : disk.names.find? name = some file) :
    disk.file? name = some (disk.files.getD file []) := by
  rw [Disk.file?, h]
  rfl

/-- What is found under a name if the files of the other names are as they were. -/
theorem file?_congr (hnames : later.names.find? name = disk.names.find? name)
    (hfiles : ∀ file, disk.names.find? name = some file →
      later.files.getD file [] = disk.files.getD file []) :
    later.file? name = disk.file? name := by
  rw [Disk.file?, Disk.file?, hnames]
  cases hfound : disk.names.find? name with
  | none => rfl
  | some file => exact congrArg some (hfiles file hfound)

/-- The bytes of one file were changed. -/
structure Changes (file : FileId) (change : Bytes → Bytes) (disk later : Disk) : Prop where
  present : later.present = disk.present
  names : later.names = disk.names
  size : later.files.size = disk.files.size
  changed : file < disk.files.size →
    later.files.getD file [] = change (disk.files.getD file [])
  others : ∀ other, other ≠ file → later.files.getD other [] = disk.files.getD other []

/-- Changing the bytes of a file of one name touches no other name. -/
theorem Changes.touches {file : FileId} {change : Bytes → Bytes}
    (h : Changes file change disk later) (hseparate : Separate own disk) (hown : own name)
    (hname : disk.names.find? name = some file) :
    Touches own name disk later ∧
      later.file? name = some (change (disk.files.getD file [])) := by
  refine ⟨⟨⟨?_, ?_⟩, ?_, ?_⟩, ?_⟩
  · intro other found hother hfound
    rw [h.names] at hfound
    rw [h.size]
    exact hseparate.inside other found hother hfound
  · intro first second found hfirst hsecond hfound hfound'
    rw [h.names] at hfound hfound'
    exact hseparate.distinct first second found hfirst hsecond hfound hfound'
  · intro other hother hne
    rw [h.names]
  · intro other hother hne
    refine file?_congr (by rw [h.names]) fun found hfound => h.others found ?_
    -- two names with one file would not be kept apart
    intro heq
    rw [heq] at hfound
    exact hne (hseparate.distinct other name file hother hown hfound hname)
  · rw [file?_of_names (h.names ▸ hname), h.changed (hseparate.inside name file hown hname)]

/-! ## Creating -/

/-- A name that is not there is led to a new file. -/
theorem touches_insert (hseparate : Separate own disk)
    (hnames : later.names = disk.names.insert name disk.files.size)
    (hfiles : later.files = disk.files.push []) :
    Touches own name disk later ∧ later.names.find? name = some disk.files.size ∧
      later.file? name = some [] := by
  have hname : later.names.find? name = some disk.files.size := by
    rw [hnames, Table.find?_insert, if_pos rfl]
  have hother : ∀ other, other ≠ name → later.names.find? other = disk.names.find? other := by
    intro other hne
    rw [hnames, Table.find?_insert, if_neg hne]
  refine ⟨⟨⟨?_, ?_⟩, fun other _ hne => hother other hne, ?_⟩, hname, ?_⟩
  · intro other file hown' hfile
    rw [hfiles, Array.size_push]
    by_cases hne : other = name
    · rw [hne, hname] at hfile
      cases hfile
      exact Nat.lt_succ_self _
    · rw [hother other hne] at hfile
      exact Nat.lt_succ_of_lt (hseparate.inside other file hown' hfile)
  · intro first second file hfirst hsecond hfile hfile'
    -- no other name leads to the number of the new file
    have hnew : ∀ other, own other → other ≠ name →
        later.names.find? other ≠ some disk.files.size := by
      intro other hown' hne hsome
      rw [hother other hne] at hsome
      exact Nat.lt_irrefl _ (hseparate.inside other _ hown' hsome)
    by_cases h : first = name
    · rw [h, hname] at hfile
      cases hfile
      by_cases h' : second = name
      · rw [h, h']
      · exact absurd hfile' (hnew second hsecond h')
    · by_cases h' : second = name
      · rw [h', hname] at hfile'
        cases hfile'
        exact absurd hfile (hnew first hfirst h)
      · rw [hother first h] at hfile
        rw [hother second h'] at hfile'
        exact hseparate.distinct first second file hfirst hsecond hfile hfile'
  · intro other hown' hne
    refine file?_congr (hother other hne) fun file hfile => ?_
    have hinside := hseparate.inside other file hown' hfile
    rw [hfiles, Array.getD_eq_getD_getElem?, Array.getD_eq_getD_getElem?,
      Array.getElem?_push_lt hinside]
    simp [hinside]
  · rw [file?_of_names hname, hfiles]
    simp

/-- A name that is created leads to an empty file. -/
theorem of_create {file : FileId} (hseparate : Separate own disk) (hown : own name)
    (h : Yields (create name) disk file later) :
    Touches own name disk later ∧ later.present = true ∧
      later.names.find? name = some file ∧ later.file? name = some [] := by
  unfold create at h
  obtain ⟨_, between, hattempt, hrest⟩ := of_bind h
  have hsame := of_attempt hattempt
  have hseparate' := hsame.separate hseparate
  suffices hbetween : Touches own name between later ∧ later.present = true ∧
      later.names.find? name = some file ∧ later.file? name = some [] from
    ⟨(hsame.touches hseparate name).trans hbetween.1, hbetween.2⟩
  replace hrest := of_get_bind hrest
  split at hrest
  · rename_i hpresent
    split at hrest
    · rename_i found hfound
      replace hrest := of_set_bind hrest
      obtain ⟨rfl, rfl⟩ := of_pure hrest
      have hchanges : Changes file (fun _ => []) between
          { between with files := between.files.setIfInBounds file [] } := by
        refine ⟨rfl, rfl, Array.size_setIfInBounds, ?_, ?_⟩
        · intro hinside
          simp [hinside]
        · intro other hne
          simp [Ne.symm hne]
      obtain ⟨htouches, hempty⟩ := hchanges.touches hseparate' hown hfound
      exact ⟨htouches, hpresent, hfound, hempty⟩
    · replace hrest := of_set_bind hrest
      obtain ⟨rfl, rfl⟩ := of_pure hrest
      obtain ⟨htouches, hname, hempty⟩ := touches_insert hseparate'
        (show ({ between with
          names := between.names.insert name between.files.size
          files := between.files.push [] } : Disk).names = _ from rfl) rfl
      exact ⟨htouches, hpresent, hname, hempty⟩
  · exact (of_throw hrest).elim

/-- A name that could not be created is as it was. -/
theorem fails_create {failure : Failure} (h : Fails (create name) disk failure later) :
    Same disk later := by
  unfold create at h
  rcases fails_of_bind h with hattempt | ⟨_, between, hattempt, hrest⟩
  · exact fails_attempt hattempt
  · have hsame := of_attempt hattempt
    replace hrest := fails_of_get_bind hrest
    split at hrest
    · split at hrest
      · replace hrest := fails_of_set_bind hrest
        exact (not_fails_pure hrest).elim
      · replace hrest := fails_of_set_bind hrest
        exact (not_fails_pure hrest).elim
    · rw [fails_of_throw hrest]
      exact hsame

/-! ## Writing and reading -/

/-- Writing into a file changes its bytes. -/
theorem of_writeAt {file : FileId} {place : Nat} {bytes : Bytes} {result : Unit}
    (hseparate : Separate own disk) (hown : own name) (hname : disk.names.find? name = some file)
    (h : Yields (writeAt file place bytes) disk result later) :
    Touches own name disk later ∧ later.present = disk.present ∧ later.names = disk.names ∧
      later.file? name = some (overwrite (disk.files.getD file []) place bytes) := by
  unfold writeAt at h
  obtain ⟨_, between, hattempt, hrest⟩ := of_bind h
  have hsame := of_attempt hattempt
  have hchanges : Changes file (overwrite · place bytes) between later := by
    rw [of_modify hrest]
    refine ⟨rfl, rfl, Array.size_modify, ?_, ?_⟩
    · intro hinside
      simp [hinside, Array.getElem_modify]
    · intro other hne
      simp [Array.getElem?_modify, Ne.symm hne]
  obtain ⟨htouches, hbytes⟩ := hchanges.touches (hsame.separate hseparate) hown
    (hsame.names ▸ hname)
  rw [hsame.files] at hbytes
  exact ⟨(hsame.touches hseparate name).trans htouches, hchanges.present.trans hsame.present,
    hchanges.names.trans hsame.names, hbytes⟩

/-- A file that could not be written to is as it was. -/
theorem fails_writeAt {file : FileId} {place : Nat} {bytes : Bytes} {failure : Failure}
    (h : Fails (writeAt file place bytes) disk failure later) : Same disk later := by
  unfold writeAt at h
  rcases fails_of_bind h with hattempt | ⟨_, between, -, hrest⟩
  · exact fails_attempt hattempt
  · exact (not_fails_modify hrest).elim

/-- A file that was created and then filled has these bytes. -/
theorem of_create_writeAt {file : FileId} {bytes : Bytes} {result : Unit} {created : Disk}
    (hseparate : Separate own disk) (hown : own name)
    (hcreate : Yields (create name) disk file created)
    (hwrite : Yields (writeAt file 0 bytes) created result later) :
    Touches own name disk later ∧ later.present = true ∧ later.file? name = some bytes := by
  obtain ⟨htouches, hpresent, hname, hempty⟩ := of_create hseparate hown hcreate
  obtain ⟨htouches', hpresent', -, hbytes⟩ := of_writeAt htouches.separate hown hname hwrite
  rw [file?_of_names hname] at hempty
  rw [Option.some.inj hempty] at hbytes
  refine ⟨htouches.trans htouches', hpresent'.trans hpresent, ?_⟩
  rw [hbytes]
  simp [overwrite]

/-- A file that was written has these bytes. -/
theorem of_write {bytes : Bytes} {result : Unit} (hseparate : Separate own disk) (hown : own name)
    (h : Yields (write name bytes) disk result later) :
    Touches own name disk later ∧ later.present = true ∧ later.file? name = some bytes := by
  unfold write at h
  obtain ⟨file, between, hcreate, hwrite⟩ := of_bind h
  exact of_create_writeAt hseparate hown hcreate hwrite

/-- What is read are the bytes of the file. -/
theorem of_read {bytes : Bytes} (h : Yields (read name) disk bytes later) :
    Same disk later ∧ disk.file? name = some bytes := by
  unfold read at h
  obtain ⟨_, between, hattempt, hrest⟩ := of_bind h
  have hsame := of_attempt hattempt
  replace hrest := of_get_bind hrest
  split at hrest
  · rename_i found hfound
    obtain ⟨rfl, rfl⟩ := of_pure hrest
    exact ⟨hsame, (hsame.file? name).symm.trans hfound⟩
  · exact (of_throw hrest).elim

/-! ## Removing -/

/-- The names that are found after some of them were removed. -/
def Without (removed : String → Prop) (disk later : Disk) : Prop :=
  later.files = disk.files ∧ ∀ name,
    (removed name → later.names.find? name = none) ∧
      (¬ removed name → later.names.find? name = disk.names.find? name)

/-- A file that is removed is found no more, and all others are. -/
theorem of_remove {result : Unit} (h : Yields (remove name) disk result later) :
    Without (· = name) disk later := by
  unfold remove at h
  obtain ⟨_, between, hattempt, hrest⟩ := of_bind h
  have hsame := of_attempt hattempt
  replace hrest := of_get_bind hrest
  split at hrest
  · rw [of_set hrest]
    refine ⟨hsame.files, fun other => ⟨fun heq => ?_, fun hne => ?_⟩⟩
    · show (between.names.erase name).find? other = none
      rw [Table.find?_erase, if_pos heq]
    · show (between.names.erase name).find? other = _
      rw [Table.find?_erase, if_neg hne, hsame.names]
  · exact (of_throw hrest).elim

/-- Names are kept apart after some were removed. -/
theorem Without.separate {removed : String → Prop} (h : Without removed disk later)
    (hseparate : Separate own disk) : Separate own later := by
  have hkept : ∀ name file, later.names.find? name = some file →
      disk.names.find? name = some file := by
    intro name file hfile
    by_cases hremoved : removed name
    · rw [(h.2 name).1 hremoved] at hfile
      cases hfile
    · rw [← (h.2 name).2 hremoved]
      exact hfile
  refine ⟨?_, ?_⟩
  · intro name file hown hfile
    rw [h.1]
    exact hseparate.inside name file hown (hkept name file hfile)
  · intro name other file hown hother hfile hfile'
    exact hseparate.distinct name other file hown hother (hkept name file hfile)
      (hkept other file hfile')

/-- The files that were not removed are found as before. -/
theorem Without.file? {removed : String → Prop} (h : Without removed disk later)
    (hname : ¬ removed name) : later.file? name = disk.file? name :=
  file?_congr ((h.2 name).2 hname) fun _ _ => by rw [h.1]

/-- Without a step no name is removed. -/
theorem Without.refl : Without (fun _ => False) disk disk :=
  ⟨rfl, fun _ => ⟨False.elim, fun _ => rfl⟩⟩

/-- In two steps the names of both are removed. -/
theorem Without.trans {first second : String → Prop} {between : Disk}
    (hfirst : Without first disk between) (hsecond : Without second between later) :
    Without (fun name => first name ∨ second name) disk later := by
  refine ⟨hsecond.1.trans hfirst.1, fun name => ⟨fun hremoved => ?_, fun hkept => ?_⟩⟩
  · by_cases h : second name
    · exact (hsecond.2 name).1 h
    · rw [(hsecond.2 name).2 h]
      exact (hfirst.2 name).1 (hremoved.resolve_right h)
  · rw [(hsecond.2 name).2 fun h => hkept (Or.inr h), (hfirst.2 name).2 fun h => hkept (Or.inl h)]

/-- Which names were removed does not depend on how they are described. -/
theorem Without.congr {first second : String → Prop} (h : Without first disk later)
    (hiff : ∀ name, first name ↔ second name) : Without second disk later :=
  ⟨h.1, fun name => ⟨fun hremoved => (h.2 name).1 ((hiff name).2 hremoved),
    fun hkept => (h.2 name).2 fun hremoved => hkept ((hiff name).1 hremoved)⟩⟩

/-- Removing a name touches no other one. -/
theorem Without.touches (h : Without (· = name) disk later) (hseparate : Separate own disk) :
    Touches own name disk later :=
  ⟨h.separate hseparate, fun other _ hne => (h.2 other).2 hne, fun _ _ hne => h.file? hne⟩

/-- After removing a file that may be missing its name is free. -/
theorem of_removeIfPresent {result : Unit}
    (h : Yields (removeIfPresent name) disk result later) : Without (· = name) disk later := by
  unfold removeIfPresent at h
  replace h := of_get_bind h
  split at h
  · exact of_remove h
  · rename_i hmissing
    obtain ⟨-, rfl⟩ := of_pure h
    refine ⟨rfl, fun other => ⟨fun heq => ?_, fun _ => rfl⟩⟩
    rw [heq]
    cases hfound : later.names.find? name with
    | none => rfl
    | some file => exact absurd (Table.contains_iff.2 ⟨file, hfound⟩) hmissing

/-- Removing several names one after another. -/
theorem of_forM_remove {α : Type} {action : α → OnDisk Unit} {nameOf : α → String}
    (haction : ∀ {element disk result later}, Yields (action element) disk result later →
      Without (· = nameOf element) disk later)
    {elements : List α} {result : Unit}
    (h : Yields (elements.forM action) disk result later) :
    Without (fun name => ∃ element ∈ elements, nameOf element = name) disk later := by
  refine Attempt.forM_induction
    (fun done now => Without (fun name => ∃ element ∈ done, nameOf element = name) disk now)
    ?_ (Without.refl.congr (by simp)) h
  intro done element now next hnow hstep
  refine (hnow.trans (haction hstep)).congr fun name => ?_
  simp [or_and_right, exists_or, eq_comm]

/-- The names that are listed are those that are there. -/
theorem of_list {names : List String} (h : Yields list disk names later) :
    Same disk later ∧ names = disk.fileNames := by
  unfold list at h
  obtain ⟨_, between, hattempt, hrest⟩ := of_bind h
  have hsame := of_attempt hattempt
  replace hrest := of_get_bind hrest
  split at hrest
  · obtain ⟨rfl, rfl⟩ := of_pure hrest
    refine ⟨hsame, ?_⟩
    rw [fileNames, fileNames, hsame.names]
  · exact (of_throw hrest).elim

/-- A name that leads to a file is listed. -/
theorem mem_fileNames {file : FileId} (h : disk.names.find? name = some file) :
    name ∈ disk.fileNames :=
  List.mem_map.2 ⟨(name, file), Table.mem_entries.2 h, rfl⟩

/-! ## A disk that refuses nothing -/

/-- The directory is there, and no attempt to use it will be refused. -/
structure Willing (disk : Disk) : Prop where
  present : disk.present = true
  grants : ∀ count, disk.refuses count = false

/-- A willing disk grants an attempt. -/
theorem Willing.attempt (h : disk.Willing) :
    ∃ later, Yields attempt disk () later ∧ Same disk later ∧ later.Willing := by
  refine ⟨{ disk with attempts := disk.attempts + 1 }, ?_, ⟨rfl, rfl, rfl⟩, h.present, h.grants⟩
  unfold Disk.attempt
  refine yields_bind rfl (yields_bind rfl ?_)
  rw [if_neg (by simp [h.grants])]
  rfl

/-- A file that is there can be read. -/
theorem Willing.read (h : disk.Willing) {bytes : Bytes} (hfile : disk.file? name = some bytes) :
    ∃ later, Yields (read name) disk bytes later ∧ Same disk later ∧ later.Willing := by
  obtain ⟨later, hattempt, hsame, hlater⟩ := h.attempt
  refine ⟨later, yields_bind hattempt (yields_bind rfl ?_), hsame, hlater⟩
  rw [hsame.file? name, hfile]
  rfl

/-- Every name can be created. -/
theorem Willing.create (h : disk.Willing) (name : String) :
    ∃ file later, Yields (create name) disk file later ∧ later.Willing := by
  obtain ⟨between, hattempt, -, hbetween⟩ := h.attempt
  cases hfound : between.names.find? name with
  | some file =>
      refine ⟨file, { between with files := between.files.setIfInBounds file [] },
        yields_bind hattempt (yields_bind rfl ?_), hbetween.present, hbetween.grants⟩
      rw [if_pos hbetween.present, hfound]
      rfl
  | none =>
      refine ⟨between.files.size, { between with
          names := between.names.insert name between.files.size
          files := between.files.push [] },
        yields_bind hattempt (yields_bind rfl ?_), hbetween.present, hbetween.grants⟩
      rw [if_pos hbetween.present, hfound]
      rfl

/-- Every file can be written to. -/
theorem Willing.writeAt (h : disk.Willing) (file : FileId) (place : Nat) (bytes : Bytes) :
    ∃ later, Yields (writeAt file place bytes) disk () later ∧ later.Willing := by
  obtain ⟨between, hattempt, -, hbetween⟩ := h.attempt
  exact ⟨_, yields_bind hattempt rfl, hbetween.present, hbetween.grants⟩

/-- A computation succeeds on every disk that refuses nothing, and uses it in such a way that the
next one does. -/
def Succeeds {α : Type} (action : OnDisk α) : Prop :=
  ∀ disk : Disk, disk.Willing → ∃ result later, Yields action disk result later ∧ later.Willing

section

variable {α β : Type}

/-- A value that is at hand needs no disk. -/
theorem succeeds_pure (value : α) : Succeeds (pure value) :=
  fun disk h => ⟨value, disk, rfl, h⟩

/-- Computations that succeed do so one after another. -/
theorem Succeeds.bind {first : OnDisk α} {next : α → OnDisk β} (hfirst : Succeeds first)
    (hnext : ∀ value, Succeeds (next value)) : Succeeds (first >>= next) := by
  intro disk h
  obtain ⟨value, between, hvalue, hbetween⟩ := hfirst disk h
  obtain ⟨result, later, hresult, hlater⟩ := hnext value between hbetween
  exact ⟨result, later, yields_bind hvalue hresult, hlater⟩

/-- A file can be created. -/
theorem succeeds_create (name : String) : Succeeds (create name) :=
  fun _ h => h.create name

/-- Bytes can be written at a place of a file. -/
theorem succeeds_writeAt (file : FileId) (place : Nat) (bytes : Bytes) :
    Succeeds (writeAt file place bytes) :=
  fun _ h => ⟨(), h.writeAt file place bytes⟩

/-- Bytes can be written to a file of a name. -/
theorem succeeds_write (name : String) (bytes : Bytes) : Succeeds (write name bytes) :=
  (succeeds_create name).bind fun file => succeeds_writeAt file 0 bytes

end

end Disk
end Concordance
