import Gridding.Proofs.Cache.Recent
import Gridding.Proofs.Fallible
import Gridding.Store.Reader
import Mathlib

/-!
# Reading files again

A reader that keeps what it made of a file answers from some version of the file that was written in
the same full second as the present one. So reading with and without what is kept come to the same,
however writes and reads follow one another, if and only if no two versions of a file from one second
are read differently, the earlier one being readable at all.
-/

namespace Gridding

/-- Is an answer kept at least until the next one? -/
def Retention.Keeps : Retention → Prop
  | .nothing => False
  | .newest none | .everything => True
  | .newest (some capacity) => 0 < capacity

theorem Retention.keeps_chosen (disk : Bool) {capacity : Int} (h : 0 < capacity) :
    (Retention.chosen disk false (some capacity)).Keeps := by
  cases disk with
  | true => trivial
  | false => exact h

namespace Memo

variable {κ α ε : Type} [BEq κ]

theorem ask_of_kept {m : Memo κ α} {key : κ} {a : α} (h : m.kept.find? key = some a)
    (f : κ → Except ε α) : (m.ask key f).1 = .ok a := by
  rw [ask, h]

theorem ask_of_not_kept {m : Memo κ α} {key : κ} (h : m.kept.find? key = none)
    (f : κ → Except ε α) : (m.ask key f).1 = f key := by
  rw [ask, h]
  cases f key <;> rfl

theorem mem_keep {retention : Retention} {kept : Recent κ α} {key : κ} {a : α} {e : κ × α}
    (h : e ∈ (keep retention kept key a).entries) : e ∈ kept.entries ∨ e = (key, a) := by
  unfold keep at h
  split at h
  · exact .inl h
  · exact Entries.mem_put (((kept.set key a).keepNewest_sublist _).subset h)
  · exact Entries.mem_put h
  · exact Entries.mem_put h

variable [LawfulBEq κ]

/-- What is kept after a question was kept before or is the answer to it. -/
theorem mem_ask {m : Memo κ α} {key : κ} {f : κ → Except ε α} {e : κ × α}
    (h : e ∈ (m.ask key f).2.kept.entries) :
    e ∈ m.kept.entries ∨ ∃ a, f key = .ok a ∧ e = (key, a) := by
  unfold ask at h
  split at h
  · exact .inl (Recent.mem_refresh h)
  · split at h
    · exact .inl h
    · rename_i a ha
      exact (mem_keep h).imp_right fun he => ⟨a, ha, he⟩

/-- The first answer is there when the next question comes. -/
theorem find?_ask_new {retention : Retention} (hkeeps : retention.Keeps) {key : κ} {a : α}
    {f : κ → Except ε α} (h : f key = .ok a) :
    ((new retention : Memo κ α).ask key f).2.kept.find? key = some a := by
  have hask : ((new retention : Memo κ α).ask key f).2.kept = keep retention ⟨[]⟩ key a := by
    simp [ask, new, Recent.find?, h]
  rw [hask]
  cases retention with
  | nothing => exact hkeeps.elim
  | everything => simp [keep, Recent.set, Entries.put, Recent.find?]
  | newest capacity =>
    cases capacity with
    | none => simp [keep, Recent.set, Entries.put, Recent.find?]
    | some n =>
      have hpos : 0 < n := hkeeps
      have hroom : 1 - n.toNat = 0 := by omega
      simp [keep, Recent.set, Entries.put, Recent.keepNewest, Recent.size, Recent.find?, hroom]

end Memo

variable {β α κ δ ε τ : Type}

/-! ## Histories -/

def FileEvent.written? : FileEvent β κ τ → Option (Path × Version β τ)
  | .write place v => some (place, v)
  | .read _ _ => none

def FileEvent.ofWritten (w : Path × Version β τ) : FileEvent β κ τ := .write w.1 w.2

/-- What is written in the course of events, in order. -/
def writes (events : List (FileEvent β κ τ)) : List (Path × Version β τ) :=
  events.filterMap FileEvent.written?

theorem writes_append (events events' : List (FileEvent β κ τ)) :
    writes (events ++ events') = writes events ++ writes events' :=
  List.filterMap_append

theorem writes_cons_read (name : String) (question : κ) (events : List (FileEvent β κ τ)) :
    writes (.read name question :: events) = writes events :=
  List.filterMap_cons_none rfl

theorem writes_map (ws : List (Path × Version β τ)) :
    writes (κ := κ) (ws.map .ofWritten) = ws := by
  rw [writes, List.filterMap_map]
  exact List.filterMap_some

/-- The versions of one file. -/
def versionsAt (place : Path) (ws : List (Path × Version β τ)) : List (Version β τ) :=
  ws.filterMap fun w => if w.1 = place then some w.2 else none

theorem versionsAt_append (place : Path) (ws ws' : List (Path × Version β τ)) :
    versionsAt place (ws ++ ws') = versionsAt place ws ++ versionsAt place ws' :=
  List.filterMap_append

variable [Moment τ]

namespace Reader

variable (r : Reader β α κ δ ε) (folder : Path)

/-- Reading with what is kept gives what reading the file anew would, all along the way. -/
def Fresh (retention : Retention) (events : List (FileEvent β κ τ)) : Prop :=
  ∀ before name question after, events = before ++ .read name question :: after →
    let s := (FileState.initial retention).run r folder before
    (r.readKept folder s.files name question s.shelf).1 = r.read folder s.files name question

/-- Two versions are from different seconds or read alike, if the earlier one can be read. -/
def Alike (v w : Version β τ) : Prop :=
  Moment.second? v.modified = Moment.second? w.modified →
    ∀ a, r.parse v.contents = .ok a → ∀ question,
      r.answer a question = r.parse w.contents >>= fun b => r.answer b question

/-! ## Reading under names that can be -/

section Names

variable {r folder} {files : Disk β τ} {name : String}

theorem sign_eq (hname : '\x00' ∉ name.toList) :
    sign (ε := ε) folder files name = .ok ⟨(folder.located name).text,
      (files (folder.located name)).bind fun v => Moment.second? v.modified⟩ := by
  simp [sign, Signature.read, hname, Except.mapError, Option.bind_map]

theorem sign_of_file {v : Version β τ} (hname : '\x00' ∉ name.toList)
    (hfile : files (folder.located name) = some v) :
    sign (ε := ε) folder files name =
      .ok ⟨(folder.located name).text, Moment.second? v.modified⟩ := by
  rw [sign_eq hname, hfile, Option.bind_some]

theorem sign_error (hname : '\x00' ∈ name.toList) :
    sign (ε := ε) folder files name = .error (.path .nullCharacter) := by
  simp [sign, Signature.read, hname, Except.mapError]

theorem read_eq (hname : '\x00' ∉ name.toList) (question : κ) :
    r.read folder files name question =
      r.load folder files name >>= fun a => (r.answer a question).mapError .contents := by
  rw [read, sign_eq hname]
  rfl

theorem readKept_eq {signature : Signature} (hsign : sign (ε := ε) folder files name = .ok signature)
    (question : κ) (shelf : Shelf α) :
    r.readKept folder files name question shelf =
      let asked := shelf.ask (name, signature) fun key => r.load folder files key.1
      (asked.1 >>= fun a => (r.answer a question).mapError .contents, asked.2) := by
  rw [readKept, hsign]

omit [Moment τ] in
theorem load_eq {v : Version β τ} (hfile : files (folder.located name) = some v) :
    r.load folder files name = (r.parse v.contents).mapError .contents := by
  rw [load, hfile]

theorem read_of_file {v : Version β τ} (hname : '\x00' ∉ name.toList)
    (hfile : files (folder.located name) = some v) (question : κ) :
    r.read folder files name question =
      (r.parse v.contents >>= fun a => r.answer a question).mapError .contents := by
  rw [read_eq hname, load_eq hfile, mapError_bind]

theorem readKept_of_kept {v : Version β τ} (hname : '\x00' ∉ name.toList)
    (hfile : files (folder.located name) = some v) {shelf : Shelf α} {a : α}
    (hkept : shelf.kept.find? (name, ⟨(folder.located name).text, Moment.second? v.modified⟩) = some a)
    (question : κ) :
    (r.readKept folder files name question shelf).1 = (r.answer a question).mapError .contents := by
  rw [readKept_eq (sign_of_file hname hfile)]
  dsimp only
  rw [Memo.ask_of_kept hkept]
  rfl

/-- What is made of a file that nothing is kept of is kept. -/
theorem find?_readKept_new {retention : Retention} (hkeeps : retention.Keeps) {v : Version β τ}
    (hname : '\x00' ∉ name.toList) (hfile : files (folder.located name) = some v) {a : α}
    (hparse : r.parse v.contents = .ok a) (question : κ) :
    (r.readKept folder files name question (.new retention)).2.kept.find?
      (name, ⟨(folder.located name).text, Moment.second? v.modified⟩) = some a := by
  rw [readKept_eq (sign_of_file hname hfile)]
  refine Memo.find?_ask_new hkeeps ?_
  rw [load_eq hfile, hparse]
  rfl

omit [Moment τ] in
theorem load_eq_ok {a : α} (h : r.load folder files name = .ok a) :
    ∃ v, files (folder.located name) = some v ∧ r.parse v.contents = .ok a := by
  unfold load at h
  split at h
  · rename_i v hv
    exact ⟨v, hv, mapError_eq_ok.mp h⟩
  · cases h

end Names

/-! ## What is kept comes from a version of the same second -/

/-- What lies at a place was written last there, and what is kept was made of a version from the
second of its signature. -/
structure Traced (ws : List (Path × Version β τ)) (s : FileState β α τ) : Prop where
  file (p : Path) : s.files p = (versionsAt p ws).getLast?
  kept : ∀ e ∈ s.shelf.kept.entries, ∃ v ∈ versionsAt (folder.located e.1.1) ws,
    Moment.second? v.modified = e.1.2.modified ∧ r.parse v.contents = .ok e.2

variable {r folder}

theorem traced_initial (r : Reader β α κ δ ε) (folder : Path) (retention : Retention) :
    Traced r folder [] (FileState.initial retention : FileState β α τ) where
  file _ := rfl
  kept _ he := absurd he List.not_mem_nil

namespace Traced

variable {ws : List (Path × Version β τ)} {s : FileState β α τ}

theorem write (h : Traced r folder ws s) (place : Path) (v : Version β τ) :
    Traced r folder (ws ++ [(place, v)]) (s.step r folder (.write place v)) where
  file p := by
    change (if p = place then some v else s.files p) = _
    rw [versionsAt_append]
    by_cases hp : p = place
    · rw [if_pos hp]
      simp [versionsAt, hp]
    · rw [if_neg hp, h.file p]
      simp [versionsAt, Ne.symm hp]
  kept e he := by
    obtain ⟨w, hw, hkept⟩ := h.kept e he
    refine ⟨w, ?_, hkept⟩
    rw [versionsAt_append]
    exact List.mem_append_left _ hw

theorem read (h : Traced r folder ws s) (name : String) (question : κ) :
    Traced r folder ws (s.step r folder (.read name question)) where
  file := h.file
  kept e he := by
    change e ∈ (r.readKept folder s.files name question s.shelf).2.kept.entries at he
    by_cases hname : '\x00' ∈ name.toList
    · rw [readKept, sign_error hname] at he
      exact h.kept e he
    · rw [readKept_eq (sign_eq hname)] at he
      rcases Memo.mem_ask he with hold | ⟨a, ha, rfl⟩
      · exact h.kept e hold
      · obtain ⟨v, hv, hparse⟩ := load_eq_ok ha
        refine ⟨v, List.mem_of_getLast? ((h.file _).symm.trans hv), ?_, hparse⟩
        simp [hv]

theorem run (h : Traced r folder ws s) (events : List (FileEvent β κ τ)) :
    Traced r folder (ws ++ writes events) (s.run r folder events) := by
  induction events generalizing ws s with
  | nil => simpa [writes, FileState.run] using h
  | cons event events ih =>
    cases event with
    | write place v =>
      have hrun := ih (h.write place v)
      rwa [List.append_assoc] at hrun
    | read name question => exact ih (h.read name question)

/-- A file that was just written holds what was written. -/
theorem file_of_concat {place : Path} {v : Version β τ} (h : Traced r folder (ws ++ [(place, v)]) s) :
    s.files place = some v := by
  rw [h.file, versionsAt_append]
  simp [versionsAt]

/-- Reading is right if the versions of the file so far are alike. -/
theorem readKept_eq_read (h : Traced r folder ws s) {name : String} (hname : '\x00' ∉ name.toList)
    (halike : (versionsAt (folder.located name) ws).Pairwise r.Alike) (question : κ) :
    (r.readKept folder s.files name question s.shelf).1 = r.read folder s.files name question := by
  have hsign : sign (ε := ε) folder s.files name = _ := sign_eq hname
  cases hkept : s.shelf.kept.find? (name, (⟨(folder.located name).text,
      (s.files (folder.located name)).bind fun v => Moment.second? v.modified⟩ : Signature)) with
  | none =>
    rw [readKept_eq hsign, read_eq hname]
    dsimp only
    rw [Memo.ask_of_not_kept hkept]
  | some a =>
    obtain ⟨v, hv, hsecond, hparse⟩ := h.kept _ (mem_of_lookup hkept)
    -- the file is there, since a version of it has been read
    obtain ⟨w, hw⟩ : ∃ w, (versionsAt (folder.located name) ws).getLast? = some w :=
      Option.isSome_iff_exists.mp (List.getLast?_isSome.mpr (List.ne_nil_of_mem hv))
    have hfile := (h.file _).trans hw
    rw [hfile] at hkept hsecond
    rw [readKept_of_kept hname hfile hkept, read_of_file hname hfile]
    refine congrArg (Except.mapError ReadError.contents) ?_
    obtain ⟨older, hversions⟩ := List.getLast?_eq_some_iff.mp hw
    rw [hversions] at hv halike
    rcases List.mem_append.mp hv with hold | hlast
    · exact (List.pairwise_append.mp halike).2.2 v hold w (List.mem_singleton_self w) hsecond a
        hparse question
    · rw [← List.mem_singleton.mp hlast, hparse]
      rfl

end Traced

/-! ## Two versions of one second -/

/-- Writing leaves what is kept as it is. -/
theorem shelf_run_writes (s : FileState β α τ) (ws : List (Path × Version β τ)) :
    (s.run r folder (ws.map .ofWritten)).shelf = s.shelf := by
  induction ws generalizing s with
  | nil => rfl
  | cons w ws ih => exact ih _

theorem run_append (s : FileState β α τ) (events events' : List (FileEvent β κ τ)) :
    s.run r folder (events ++ events') = (s.run r folder events).run r folder events' :=
  List.foldl_append

variable (r folder) in
/-- What was made of a version, the file being read then only, is found for a later version from the
same second. -/
theorem kept_after_write {retention : Retention} (hkeeps : retention.Keeps) {name : String}
    (hname : '\x00' ∉ name.toList) (before between : List (Path × Version β τ)) {v w : Version β τ}
    (hsecond : Moment.second? v.modified = Moment.second? w.modified) {a : α}
    (hparse : r.parse v.contents = .ok a) (question : κ) :
    let s := (FileState.initial retention).run r folder
      ((before ++ [(folder.located name, v)]).map .ofWritten ++
        .read name question :: (between ++ [(folder.located name, w)]).map .ofWritten)
    s.files (folder.located name) = some w ∧ s.shelf.kept.find?
      (name, ⟨(folder.located name).text, Moment.second? w.modified⟩) = some a := by
  have htraced (events : List (FileEvent β κ τ)) :=
    (traced_initial r folder retention).run events
  let s₁ := (FileState.initial retention).run r folder
    ((before ++ [(folder.located name, v)]).map .ofWritten)
  have hfile : s₁.files (folder.located name) = some v := by
    have hrun := htraced ((before ++ [(folder.located name, v)]).map .ofWritten)
    rw [List.nil_append, writes_map] at hrun
    exact hrun.file_of_concat
  intro s
  have hshelf : s.shelf = (r.readKept folder s₁.files name question s₁.shelf).2 :=
    (congrArg FileState.shelf (run_append _ _ _)).trans (shelf_run_writes _ _)
  have hnew : s₁.shelf = .new retention := shelf_run_writes _ _
  constructor
  · have hrun := htraced ((before ++ [(folder.located name, v)]).map .ofWritten ++
      .read name question :: (between ++ [(folder.located name, w)]).map .ofWritten)
    rw [List.nil_append, writes_append, writes_cons_read, writes_map, writes_map,
      ← List.append_assoc] at hrun
    exact hrun.file_of_concat
  · rw [hshelf, hnew, ← hsecond]
    exact find?_readKept_new hkeeps hname hfile hparse question

/-- If reading is always right, then also after either of two versions and at no other time. -/
theorem alike_of_fresh {retention : Retention} (hkeeps : retention.Keeps) {name : String}
    (hname : '\x00' ∉ name.toList) {ws : List (Path × Version β τ)}
    (before between after : List (Path × Version β τ)) {v w : Version β τ}
    (hws : ws = (before ++ [(folder.located name, v)]) ++
      ((between ++ [(folder.located name, w)]) ++ after))
    (hfresh : ∀ events : List (FileEvent β κ τ), writes events = ws →
      r.Fresh folder retention events) : r.Alike v w := by
  intro hsecond a hparse question
  let first : List (FileEvent β κ τ) := (before ++ [(folder.located name, v)]).map .ofWritten
  let second : List (FileEvent β κ τ) := (between ++ [(folder.located name, w)]).map .ofWritten
  have hwrites : writes ((first ++ .read name question :: second) ++ .read name question ::
      after.map .ofWritten) = ws := by
    rw [writes_append, writes_append, writes_cons_read, writes_cons_read, writes_map, writes_map,
      writes_map, hws, List.append_assoc]
  have hright := hfresh _ hwrites _ name question _ rfl
  obtain ⟨hfile, hkept⟩ :=
    kept_after_write r folder hkeeps hname before between hsecond hparse question
  dsimp only at hright
  rw [readKept_of_kept hname hfile hkept, read_of_file hname hfile] at hright
  exact mapError_injective (fun x y hxy => ReadError.contents.inj hxy) hright

/-- Reading is right however writes and reads follow one another, if and only if no two versions of
a file that can be named are from one second and read differently. -/
theorem fresh_iff_alike {retention : Retention} (hkeeps : retention.Keeps)
    (ws : List (Path × Version β τ)) :
    (∀ events : List (FileEvent β κ τ), writes events = ws → r.Fresh folder retention events) ↔
      ∀ name : String, '\x00' ∉ name.toList →
        (versionsAt (folder.located name) ws).Pairwise r.Alike := by
  constructor
  · intro hfresh name hname
    refine List.pairwise_filterMap.mpr (List.pairwise_of_forall_sublist fun {x y} hsub => ?_)
    intro v hv w hw
    rw [Option.ite_none_right_eq_some, Option.some.injEq] at hv hw
    obtain ⟨⟨hx, rfl⟩, hy, rfl⟩ := And.intro hv hw
    obtain ⟨l₁, l₂, rfl, hmem, hrest⟩ := List.cons_sublist_iff.mp hsub
    obtain ⟨before, between, rfl⟩ := List.append_of_mem hmem
    obtain ⟨between', after, rfl⟩ := List.append_of_mem (List.singleton_sublist.mp hrest)
    refine alike_of_fresh hkeeps hname before (between ++ between') after ?_ hfresh
    have hxv : (folder.located name, x.2) = x := Prod.ext hx.symm rfl
    have hyw : (folder.located name, y.2) = y := Prod.ext hy.symm rfl
    rw [hxv, hyw]
    simp
  · rintro hpairwise events rfl before name question after rfl
    intro s
    by_cases hname : '\x00' ∈ name.toList
    · rw [readKept, read, sign_error hname]
      rfl
    · have htraced := (traced_initial r folder retention).run before
      rw [List.nil_append] at htraced
      have hall := hpairwise name hname
      rw [writes_append, versionsAt_append] at hall
      exact htraced.readKept_eq_read hname (List.pairwise_append.mp hall).1 question

end Reader

/-! ## Grid descriptions -/

namespace Description

/-- Exact times in seconds. -/
instance : Moment ℚ where
  second? t := some (t.num.tdiv t.den)

/-- A description of one grid. -/
def oneGrid (name : String) : String := "' '\n' '\n'" ++ name ++ "'\nS\n"

def data : Path := ⟨"/", ["data"]⟩

theorem parse_oneGrid_a : reader.parse (oneGrid "A") = .ok ⟨[], [("A", ⟨"S", []⟩)]⟩ := rfl

theorem parse_oneGrid_b : reader.parse (oneGrid "B") = .ok ⟨[], [("B", ⟨"S", []⟩)]⟩ := rfl

/-- A description that is written again as it was within a second, and changed in the next one, is
read right at all times. -/
theorem fresh_iff_alike_touched : (Retention.chosen false false (some capacity)).Keeps ∧
    ∀ events : List (FileEvent String (Option String) ℚ),
      writes events = [(data.located "GRIDDESC", ⟨oneGrid "A", 5 / 4⟩),
        (data.located "GRIDDESC", ⟨oneGrid "A", 7 / 4⟩),
        (data.located "GRIDDESC", ⟨oneGrid "B", 9 / 4⟩)] →
      reader.Fresh data (.chosen false false (some capacity)) events := by
  have hkeeps := Retention.keeps_chosen false (by decide : 0 < capacity)
  refine ⟨hkeeps, (Reader.fresh_iff_alike hkeeps _).mpr fun name _ => ?_⟩
  have hapart (t : ℚ) (h : Moment.second? t ≠ Moment.second? (9 / 4 : ℚ)) :
      reader.Alike (⟨oneGrid "A", t⟩ : Version String ℚ) ⟨oneGrid "B", 9 / 4⟩ :=
    fun hsecond => absurd hsecond h
  have hsame : reader.Alike (⟨oneGrid "A", 5 / 4⟩ : Version String ℚ) ⟨oneGrid "A", 7 / 4⟩ := by
    intro _ a ha question
    rw [ha]
    rfl
  have h₁ := hapart (5 / 4) (by decide +kernel)
  have h₂ := hapart (7 / 4) (by decide +kernel)
  by_cases hplace : data.located "GRIDDESC" = data.located name
  · simp [versionsAt, hplace, hsame, h₁, h₂]
  · simp [versionsAt, hplace]

/-- A description that is changed within a second is answered for by its earlier version, in memory
as on disk. -/
theorem stale_within_second : (5 / 4 : ℚ) < 7 / 4 ∧ ∀ disk : Bool,
    let s := (FileState.initial (.chosen disk false (some capacity))).run reader data
      [.write (data.located "GRIDDESC") ⟨oneGrid "A", (5 / 4 : ℚ)⟩, .read "GRIDDESC" none,
        .write (data.located "GRIDDESC") ⟨oneGrid "B", 7 / 4⟩]
    (reader.readKept data s.files "GRIDDESC" none s.shelf).1 = .ok (.names ["A"]) ∧
      reader.read data s.files "GRIDDESC" none = .ok (.names ["B"]) := by
  refine ⟨by norm_num, fun disk => ?_⟩
  have hname : '\x00' ∉ "GRIDDESC".toList := by decide +kernel
  intro s
  have hsecond : Moment.second? (5 / 4 : ℚ) = Moment.second? (7 / 4 : ℚ) := by decide +kernel
  obtain ⟨hfile, hkept⟩ : s.files (data.located "GRIDDESC") = some ⟨oneGrid "B", 7 / 4⟩ ∧
      s.shelf.kept.find? ("GRIDDESC", ⟨(data.located "GRIDDESC").text,
        Moment.second? (7 / 4 : ℚ)⟩) = some ⟨[], [("A", ⟨"S", []⟩)]⟩ :=
    Reader.kept_after_write reader data (v := ⟨oneGrid "A", 5 / 4⟩)
      (Retention.keeps_chosen disk (by decide : 0 < capacity)) hname [] [] hsecond parse_oneGrid_a none
  constructor
  · rw [Reader.readKept_of_kept hname hfile hkept]
    rfl
  · rw [Reader.read_of_file hname hfile, parse_oneGrid_b]
    rfl

end Description

end Gridding
