import Gridding.Proofs.Document.Reader
import Gridding.Settings.Store

/-!
# The settings file after saving

What is written of settings before their last character is not read as an object. So a save that
stops after opening the file leaves no settings to load, unless it had written all of them: the
settings of before are kept if there were none, or if they are the ones that were written.
-/

namespace Gridding

namespace Document

/-- An object is written with its closing brace at the end. -/
theorem exists_write_object (ms : List (String × Document)) :
    ∃ cs, (Document.object ms).write.toList = cs ++ ['}'] := by
  cases ms with
  | nil => exact ⟨['{'], rfl⟩
  | cons m ms =>
    obtain ⟨name, d⟩ := m
    rw [write, writeAt, String.toList_append]
    exact ⟨_, rfl⟩

/-- What was written of an object in part is not read as an object. -/
theorem read?_take_ne_object {settings ms : List (String × Document)} {n : ℕ}
    (hread : read? (Document.object settings).write = some (.object settings))
    (hn : n < (Document.object settings).write.toList.length) :
    read? (String.ofList ((Document.object settings).write.toList.take n)) ≠ some (.object ms) := by
  intro hpart
  generalize hw : (Document.object settings).write = w at *
  obtain ⟨cs, hcs⟩ := exists_write_object settings
  have hsplit : w = String.ofList (w.toList.take n) ++ String.ofList (w.toList.drop n) := by
    rw [← String.ofList_append, List.take_append_drop, String.ofList_toList]
  have hwhole := read?_append hpart (String.ofList (w.toList.drop n))
  rw [← hsplit, hread, String.toList_ofList] at hwhole
  split at hwhole
  case isFalse => cases hwhole
  case isTrue hblank =>
    -- The closing brace is in what was left out, which is not blank therefore.
    have hmem : '}' ∈ w.toList.drop n := by
      rw [← hw, hcs, List.drop_append_of_le_length]
      · simp
      · rw [← hw, hcs] at hn
        simpa [Nat.lt_succ_iff] using hn
    have hspace := List.dropWhile_eq_nil_iff.mp (List.isEmpty_iff.mp hblank) '}' hmem
    cases hspace

end Document

namespace SettingsFile

variable {settings : List (String × Document)} {file : SettingsFile} {n : ℕ}

/-- The file can be opened for writing. -/
def IsWritable (file : SettingsFile) : Prop := file ≠ .folder ∧ file ≠ .unreachable

instance (file : SettingsFile) : Decidable file.IsWritable := inferInstanceAs (Decidable (_ ∧ _))

theorem isWritable_text (content : String) : IsWritable (.text content) := ⟨nofun, nofun⟩

section Written

theorem load_text (h : Document.read? (Document.object settings).write = some (.object settings)) :
    load (.text (Document.object settings).write) = settings := by
  rw [load, h]

theorem load_text_take
    (h : Document.read? (Document.object settings).write = some (.object settings))
    (hn : n < (Document.object settings).write.toList.length) :
    load (.text (String.ofList ((Document.object settings).write.toList.take n))) = [] := by
  rw [load]
  split
  case h_1 ms hread => exact absurd hread (Document.read?_take_ne_object h hn)
  case h_2 => rfl

theorem save_of_isWritable (h : file.IsWritable) (d : Document) : save d file = .text d.write := by
  cases file with
  | folder => exact absurd rfl h.1
  | unreachable => exact absurd rfl h.2
  | absent | text | undecodable => rfl

theorem save_of_not_isWritable (h : ¬ file.IsWritable) (d : Document) : save d file = file := by
  cases file with
  | folder | unreachable => rfl
  | absent | text | undecodable => exact absurd ⟨nofun, nofun⟩ h

theorem saveUntil_of_isWritable (h : file.IsWritable) (d : Document) (n : ℕ) :
    saveUntil (.afterWriting n) d file = .text (String.ofList (d.write.toList.take n)) := by
  cases file with
  | folder => exact absurd rfl h.1
  | unreachable => exact absurd rfl h.2
  | absent | text | undecodable => rfl

theorem saveUntil_of_not_isWritable (h : ¬ file.IsWritable) (fault : SaveFault) (d : Document) :
    saveUntil fault d file = file := by
  cases fault with
  | beforeOpening => rfl
  | afterWriting n =>
    cases file with
    | folder | unreachable => rfl
    | absent | text | undecodable => exact absurd ⟨nofun, nofun⟩ h

end Written

/-- A save that fails and does not change what is loaded. -/
inductive Keeps (settings : List (String × Document)) (file : SettingsFile) : SaveFault → Prop
  | beforeOpening : Keeps settings file .beforeOpening
  | notOpened (n : ℕ) (h : ¬ file.IsWritable) : Keeps settings file (.afterWriting n)
  | nothingToLose (n : ℕ) (hn : n < (Document.object settings).write.toList.length)
    (h : file.load = []) : Keeps settings file (.afterWriting n)
  | allWritten (n : ℕ) (hn : (Document.object settings).write.toList.length ≤ n)
    (h : file.load = settings) : Keeps settings file (.afterWriting n)

/-- What is loaded after a save that was stopped once the file had been opened. -/
theorem load_saveUntil_of_isWritable
    (hread : Document.read? (Document.object settings).write = some (.object settings))
    (h : file.IsWritable) (n : ℕ) :
    load (saveUntil (.afterWriting n) (.object settings) file) =
      if n < (Document.object settings).write.toList.length then [] else settings := by
  rw [saveUntil_of_isWritable h]
  split_ifs with hn
  · exact load_text_take hread hn
  · rw [List.take_of_length_le (not_lt.mp hn), String.ofList_toList]
    exact load_text hread

/-- Settings that say how many workers there are, and nothing else. -/
def workersSettings (n : ℤ) : List (String × Document) := [("workers", .integer n)]

def isWorkersSettings (n : ℤ) : Option Document → Bool
  | some (.object [(name, .integer k)]) => name == "workers" && k == n
  | _ => false

theorem eq_of_isWorkersSettings {n : ℤ} {found : Option Document} (h : isWorkersSettings n found) :
    found = some (.object (workersSettings n)) := by
  rw [isWorkersSettings.eq_def] at h
  split at h
  case h_1 name k =>
    rw [Bool.and_eq_true, beq_iff_eq, beq_iff_eq] at h
    rw [h.1, h.2, workersSettings]
  case h_2 => cases h

theorem read?_write_eight : Document.read? (Document.object (workersSettings 8)).write =
    some (.object (workersSettings 8)) := eq_of_isWorkersSettings (by decide +kernel)

theorem load_save (h : Document.read? (Document.object settings).write = some (.object settings))
    (file : SettingsFile) :
    load (save (.object settings) file) = if file.IsWritable then settings else file.load := by
  split_ifs with hfile
  · rw [save_of_isWritable hfile, load_text h]
  · rw [save_of_not_isWritable hfile]

theorem load_saveUntil_eq_load_iff
    (hread : Document.read? (Document.object settings).write = some (.object settings))
    (file : SettingsFile) (fault : SaveFault) :
    load (saveUntil fault (.object settings) file) = file.load ↔ Keeps settings file fault := by
  by_cases h : file.IsWritable
  · constructor
    · intro hkept
      cases fault with
      | beforeOpening => exact .beforeOpening
      | afterWriting n =>
        rw [load_saveUntil_of_isWritable hread h] at hkept
        split_ifs at hkept with hn
        · exact .nothingToLose n hn hkept.symm
        · exact .allWritten n (not_lt.mp hn) hkept.symm
    · intro hkeeps
      cases hkeeps with
      | beforeOpening => rfl
      | notOpened n hclosed => exact absurd h hclosed
      | nothingToLose n hn hload =>
        rw [load_saveUntil_of_isWritable hread h, if_pos hn, hload]
      | allWritten n hn hload =>
        rw [load_saveUntil_of_isWritable hread h, if_neg (not_lt.mpr hn), hload]
  · refine iff_of_true (by rw [saveUntil_of_not_isWritable h]) ?_
    cases fault with
    | beforeOpening => exact .beforeOpening
    | afterWriting n => exact .notOpened n h

/-- Saved settings are loaded, if the file can be opened. A save that is stopped keeps what was
loaded before exactly in the cases of `Keeps`: once the file is open, nothing is loaded until all of
the new settings are written. -/
theorem load_saveUntil_iff (settings : List (String × Document)) (file : SettingsFile)
    (fault : SaveFault)
    (hread : Document.read? (Document.object settings).write = some (.object settings)) :
    load (save (.object settings) file) = (if file.IsWritable then settings else file.load) ∧
    (load (saveUntil fault (.object settings) file) = file.load ↔ Keeps settings file fault) ∧
    ∀ n, file.IsWritable → load (saveUntil (.afterWriting n) (.object settings) file) =
      if n < (Document.object settings).write.toList.length then [] else settings :=
  ⟨load_save hread file, load_saveUntil_eq_load_iff hread file fault,
    fun n h => load_saveUntil_of_isWritable hread h n⟩

/-- Eight workers are saved over four, and what was saved before stays if the file is not opened. -/
theorem load_saveUntil_four_eight :
    Document.read? (Document.object (workersSettings 8)).write =
      some (.object (workersSettings 8)) ∧
    load (save (.object (workersSettings 8)) (.text (Document.object (workersSettings 4)).write)) =
      workersSettings 8 ∧
    load (saveUntil .beforeOpening (.object (workersSettings 8))
      (.text (Document.object (workersSettings 4)).write)) =
        load (.text (Document.object (workersSettings 4)).write) := by
  obtain ⟨hsave, hkeeps, -⟩ := load_saveUntil_iff (workersSettings 8)
    (.text (Document.object (workersSettings 4)).write) .beforeOpening read?_write_eight
  exact ⟨read?_write_eight, hsave, hkeeps.mpr .beforeOpening⟩

/-- A save of eight workers that is stopped after the opening brace loses the four of before. -/
theorem load_saveUntil_loses :
    load (.text (Document.object (workersSettings 4)).write) = workersSettings 4 ∧
    load (saveUntil (.afterWriting 1) (.object (workersSettings 8))
      (.text (Document.object (workersSettings 4)).write)) = [] ∧
    Document.read? (Document.object (workersSettings 8)).write =
      some (.object (workersSettings 8)) := by
  refine ⟨load_text (eq_of_isWorkersSettings (by decide +kernel)), ?_, read?_write_eight⟩
  rw [load_saveUntil_of_isWritable read?_write_eight (isWritable_text _)]
  exact if_pos (by decide +kernel)

end SettingsFile

end Gridding
