import Gridding.Proofs.Store.Directory
import Gridding.Store.Threads

/-!
# Contents are published whole

Threads that put and get contents see only contents that were put as a whole. Each writer has a file
of its own until its content is complete; a single write then makes it the content of the key, and
no other write changes what any key has.
-/

namespace Gridding.Store

variable {β : Type}

/-- The content that comes into the file of a name. -/
def Event.publishes (name : String) : Event β → Option (List β)
  | .put key content (.ok _) => if fileName key = name then some content else none
  | _ => none

/-- The key and the content that a thread begins to put. -/
def Turn.begins (thread : Nat) : Turn β → Option (String × List β)
  | .put t key _ pieces => if t = thread then some (key, pieces.flatten) else none
  | _ => none

section History

variable (history : List (Turn β × Event β))

/-- The content last published in the file of a key. -/
def lastPublished (key : String) : Option (List β) :=
  history.reverse.findSome? fun x => x.2.publishes (fileName key)

/-- What a thread last began to put. -/
def lastBegun (thread : Nat) : Option (String × List β) :=
  history.reverse.findSome? fun x => x.1.begins thread

theorem lastPublished_concat (x : Turn β × Event β) (key : String) :
    lastPublished (history ++ [x]) key =
      (x.2.publishes (fileName key)).or (lastPublished history key) := by
  unfold lastPublished
  rw [List.reverse_append, List.reverse_singleton, List.singleton_append, List.findSome?_cons]
  cases x.2.publishes (fileName key) <;> rfl

theorem lastBegun_concat (x : Turn β × Event β) (thread : Nat) :
    lastBegun (history ++ [x]) thread = (x.1.begins thread).or (lastBegun history thread) := by
  unfold lastBegun
  rw [List.reverse_append, List.reverse_singleton, List.singleton_append, List.findSome?_cons]
  cases x.1.begins thread <;> rfl

end History

namespace Directory

variable (d : Directory β)

/-! ## One write -/

theorem attempt_create (refused : Bool) (name : String) :
    (∃ e, d.attempt refused (.create name) = (.error e, d)) ∨
      d.attempt refused (.create name) = (.ok (), d.assign name (.file [])) := by
  cases refused with
  | true => exact .inl ⟨.refused, rfl⟩
  | false =>
    by_cases hlong : isNameTooLong name
    · exact .inl ⟨.nameTooLong, by simp [attempt, write, hlong]⟩
    · exact .inr (by simp [attempt, write, hlong])

variable {d} {name : String} {written : List β}

theorem attempt_append (h : d.find? name = some (.file written)) (refused : Bool)
    (piece : List β) :
    (∃ e, d.attempt refused (.append name piece) = (.error e, d)) ∨
      d.attempt refused (.append name piece) =
        (.ok (), d.assign name (.file (written ++ piece))) := by
  cases refused with
  | true => exact .inl ⟨.refused, rfl⟩
  | false => exact .inr (by simp [attempt, write, h])

theorem attempt_rename (h : d.find? name = some (.file written)) (refused : Bool)
    (target : String) :
    (∃ e, d.attempt refused (.rename name target) = (.error e, d.remove name)) ∨
      d.attempt refused (.rename name target) =
        (.ok (), (d.remove name).assign target (.file written)) := by
  cases refused with
  | true => exact .inl ⟨.refused, rfl⟩
  | false =>
    by_cases hlong : isNameTooLong target
    · exact .inl ⟨.nameTooLong, by simp [attempt, write, hlong]⟩
    · cases htarget : d.find? target with
      | none => exact .inr (by simp [attempt, write, hlong, htarget, h])
      | some e =>
        cases e with
        | folder => exact .inl ⟨.isFolder, by simp [attempt, write, hlong, htarget]⟩
        | file old => exact .inr (by simp [attempt, write, hlong, htarget, h])

/-- The writes that complete a content. Once its file is there, it holds what is written so far. -/
inductive Completes (d : Directory β) (key mark : String) (content : List β) :
    List (Write β) → Prop
  | unbegun (pieces : List (List β)) (hpieces : pieces.flatten = content) :
      Completes d key mark content (publication (temporaryName key mark) (fileName key) pieces)
  | begun (written : List β) (pieces : List (List β))
      (hfile : d.find? (temporaryName key mark) = some (.file written))
      (hpieces : written ++ pieces.flatten = content) :
      Completes d key mark content (pieces.map (.append (temporaryName key mark)) ++
        [.rename (temporaryName key mark) (fileName key)])

end Directory

/-- The name of the file that is being written. -/
def Activity.temporary? : Activity β → Option String
  | .putting _ _ (.append name _ :: _) | .putting _ _ (.rename name _ :: _) => some name
  | _ => none

theorem temporary?_rest (key mark : String) (content : List β) (pieces : List (List β)) :
    (Activity.putting key content (pieces.map (.append (temporaryName key mark)) ++
      [.rename (temporaryName key mark) (fileName key)])).temporary? =
        some (temporaryName key mark) := by
  cases pieces <;> rfl

namespace Directory.Completes

variable {d d' : Directory β} {key mark : String} {content : List β} {ws : List (Write β)}

/-- A file that is being written is there. -/
theorem exists_file (h : d.Completes key mark content ws) {name : String}
    (hname : (Activity.putting key content ws).temporary? = some name) :
    name = temporaryName key mark ∧ ∃ written, d.find? name = some (.file written) := by
  cases h with
  | unbegun pieces hpieces => cases hname
  | begun written pieces hfile hpieces =>
    rw [temporary?_rest] at hname
    cases hname
    exact ⟨rfl, written, hfile⟩

theorem congr (h : d.Completes key mark content ws)
    (hsame : (Activity.putting key content ws).temporary? = some (temporaryName key mark) →
      d'.find? (temporaryName key mark) = d.find? (temporaryName key mark)) :
    d'.Completes key mark content ws := by
  cases h with
  | unbegun pieces hpieces => exact .unbegun pieces hpieces
  | begun written pieces hfile hpieces =>
    have hkept := hsame (temporary?_rest key mark content pieces)
    exact .begun written pieces (hkept.trans hfile) hpieces

end Directory.Completes

namespace Threads

open Directory

variable {s s' : Threads β}

@[simp] theorem directory_setActivity (t : Nat) (a : Activity β) :
    (s.setActivity t a).directory = s.directory := rfl

@[simp] theorem activity_setActivity_self (t : Nat) (a : Activity β) :
    (s.setActivity t a).activity t = a := if_pos rfl

theorem activity_setActivity_of_ne {t t' : Nat} (h : t' ≠ t) (a : Activity β) :
    (s.setActivity t a).activity t' = s.activity t' := if_neg h

theorem setActivity_of_eq {t : Nat} {a : Activity β} (h : s.activity t = a) :
    s.setActivity t a = s := by
  have hsame : (s.setActivity t a).activity = s.activity := by
    funext t'
    by_cases heq : t' = t
    · rw [heq, activity_setActivity_self, h]
    · exact activity_setActivity_of_ne heq a
  exact congrArg (Threads.mk s.directory) hsame

/-! ## What a step does -/

/-- What a turn comes to. Writes are described further below. -/
inductive Stepped (s : Threads β) : Turn β → Event β → Threads β → Prop
  | begun (t : Nat) (key mark : String) (pieces : List (List β)) (hidle : s.activity t = .idle) :
      Stepped s (.put t key mark pieces) .underway (s.setActivity t (.putting key pieces.flatten
        (publication (temporaryName key mark) (fileName key) pieces)))
  | written (t : Nat) (refused : Bool) (e : Event β) (s' : Threads β)
      (hstep : s.step (.write t refused) = some (e, s')) : Stepped s (.write t refused) e s'
  | missed (t : Nat) (key : String) (hidle : s.activity t = .idle) :
      Stepped s (.look t key) (.got key (s.directory.get key)) s
  | found (t : Nat) (key : String) (hidle : s.activity t = .idle) :
      Stepped s (.look t key) .underway (s.setActivity t (.getting key))
  | gotten (t : Nat) (key : String) (hgetting : s.activity t = .getting key) :
      Stepped s (.read t) (.got key (s.directory.get key)) (s.setActivity t .idle)

theorem stepped_of_look {t : Nat} {key : String} {e : Event β}
    (hstep : s.step (.look t key) = some (e, s')) : Stepped s (.look t key) e s' := by
  simp only [step] at hstep
  split at hstep
  · rename_i hidle
    by_cases hlong : isNameTooLong (fileName key)
    · have hget : s.directory.get key = .error .nameTooLong := by
        rw [Directory.get, Directory.read, if_pos hlong]
      rw [if_pos hlong] at hstep
      cases hstep
      exact hget ▸ .missed t key hidle
    · rw [if_neg hlong] at hstep
      cases hfound : s.directory.find? (fileName key) with
      | some entry =>
        rw [hfound] at hstep
        cases hstep
        exact .found t key hidle
      | none =>
        have hget : s.directory.get key = .ok none := by
          rw [Directory.get, Directory.read, if_neg hlong, hfound]
        rw [hfound] at hstep
        cases hstep
        exact hget ▸ .missed t key hidle
  · cases hstep

theorem stepped_of_step {turn : Turn β} {e : Event β} (hstep : s.step turn = some (e, s')) :
    Stepped s turn e s' := by
  cases turn with
  | put t key mark pieces =>
    cases ha : s.activity t with
    | idle =>
      simp only [step, ha] at hstep
      cases hstep
      exact .begun t key mark pieces ha
    | putting key' content ws => simp [step, ha] at hstep
    | getting key' => simp [step, ha] at hstep
  | write t refused => exact .written t refused e s' hstep
  | look t key => exact stepped_of_look hstep
  | read t =>
    cases ha : s.activity t with
    | idle => simp [step, ha] at hstep
    | putting key content ws => simp [step, ha] at hstep
    | getting key =>
      simp only [step, ha] at hstep
      cases hstep
      exact .gotten t key ha

/-! ## What a write does -/

/-- What a write of a thread comes to: the put fails, goes on, or ends. Only the last one changes
what names other than that of the thread's own file stand for. -/
inductive Wrote (s s' : Threads β) (t : Nat) (key mark : String) (content : List β) :
    Event β → Prop
  | failed (e : StoreError) (hidle : s'.activity t = .idle)
      (hsame : ∀ name, name ≠ temporaryName key mark →
        s'.directory.find? name = s.directory.find? name) :
      Wrote s s' t key mark content (.put key content (.error e))
  | underway (writes : List (Write β)) (hputting : s'.activity t = .putting key content writes)
      (hwrites : s'.directory.Completes key mark content writes)
      (hown : (s'.activity t).temporary? = some (temporaryName key mark))
      (hsame : ∀ name, name ≠ temporaryName key mark →
        s'.directory.find? name = s.directory.find? name) :
      Wrote s s' t key mark content .underway
  | published (hidle : s'.activity t = .idle)
      (hfile : s'.directory.find? (fileName key) = some (.file content))
      (hsame : ∀ name, name ≠ temporaryName key mark → name ≠ fileName key →
        s'.directory.find? name = s.directory.find? name) :
      Wrote s s' t key mark content (.put key content (.ok ()))

section Write

variable {t : Nat} {refused : Bool} {key mark : String} {content : List β} {w : Write β}
  {ws : List (Write β)} {e : Event β} {d : Directory β}

theorem step_write_error {err : StoreError}
    (hputting : s.activity t = .putting key content (w :: ws))
    (hwrite : s.directory.attempt refused w = (.error err, d))
    (hstep : s.step (.write t refused) = some (e, s')) :
    e = .put key content (.error err) ∧
      s' = ({ s with directory := d } : Threads β).setActivity t .idle := by
  simp only [step, hputting, hwrite] at hstep
  split at hstep
  · cases hstep
    exact ⟨rfl, rfl⟩
  · cases hstep

theorem step_write_last (hputting : s.activity t = .putting key content [w])
    (hwrite : s.directory.attempt refused w = (.ok (), d))
    (hstep : s.step (.write t refused) = some (e, s')) :
    e = .put key content (.ok ()) ∧
      s' = ({ s with directory := d } : Threads β).setActivity t .idle := by
  simp only [step, hputting, hwrite] at hstep
  split at hstep
  · cases hstep
    exact ⟨rfl, rfl⟩
  · cases hstep

theorem step_write_more (hws : ws ≠ []) (hputting : s.activity t = .putting key content (w :: ws))
    (hwrite : s.directory.attempt refused w = (.ok (), d))
    (hstep : s.step (.write t refused) = some (e, s')) :
    e = .underway ∧
      s' = ({ s with directory := d } : Threads β).setActivity t (.putting key content ws) := by
  obtain ⟨w', ws, rfl⟩ := List.exists_cons_of_ne_nil hws
  simp only [step, hputting, hwrite] at hstep
  split at hstep
  · cases hstep
    exact ⟨rfl, rfl⟩
  · cases hstep

theorem isFree_of_step (hputting : s.activity t = .putting key content (w :: ws))
    (hstep : s.step (.write t refused) = some (e, s')) : isFree s.directory w := by
  simp only [step, hputting] at hstep
  split at hstep
  · assumption
  · cases hstep

theorem activity_of_step_write {t' : Nat} (hne : t' ≠ t)
    (hstep : s.step (.write t refused) = some (e, s')) : s'.activity t' = s.activity t' := by
  cases ha : s.activity t with
  | idle => simp [step, ha] at hstep
  | getting key => simp [step, ha] at hstep
  | putting key content ws =>
    cases ws with
    | nil => simp [step, ha] at hstep
    | cons w ws =>
      rcases hw : s.directory.attempt refused w with ⟨result, d⟩
      cases result with
      | error err =>
        obtain ⟨-, rfl⟩ := step_write_error ha hw hstep
        exact activity_setActivity_of_ne hne _
      | ok u =>
        by_cases hws : ws = []
        · subst hws
          obtain ⟨-, rfl⟩ := step_write_last ha hw hstep
          exact activity_setActivity_of_ne hne _
        · obtain ⟨-, rfl⟩ := step_write_more hws ha hw hstep
          exact activity_setActivity_of_ne hne _

theorem exists_step_write (hputting : s.activity t = .putting key content (w :: ws))
    (hfree : isFree s.directory w) (refused : Bool) :
    ∃ e s', s.step (.write t refused) = some (e, s') := by
  cases hnext : s.step (.write t refused) with
  | some next => exact ⟨next.1, next.2, rfl⟩
  | none => simp [step, hputting, hfree] at hnext

/-- Putting a piece into the thread's own file leaves it a file that is being completed. -/
theorem wrote_of_assign {written : List β} {pieces : List (List β)}
    (hpieces : written ++ pieces.flatten = content) :
    Wrote s (({ s with directory := s.directory.assign (temporaryName key mark) (.file written) } :
      Threads β).setActivity t (.putting key content
        (pieces.map (.append (temporaryName key mark)) ++
          [.rename (temporaryName key mark) (fileName key)]))) t key mark content .underway := by
  refine .underway _ (activity_setActivity_self t _) (.begun written pieces ?_ hpieces) ?_ ?_
  · simp [find?_assign]
  · rw [activity_setActivity_self]
    exact temporary?_rest key mark content pieces
  · intro name hne
    simp [find?_assign, hne]

theorem wrote_of_step (hputting : s.activity t = .putting key content ws)
    (hwrites : s.directory.Completes key mark content ws)
    (hstep : s.step (.write t refused) = some (e, s')) : Wrote s s' t key mark content e := by
  cases hwrites with
  | unbegun pieces hpieces =>
    rcases attempt_create s.directory refused (temporaryName key mark) with ⟨err, h⟩ | h
    · obtain ⟨rfl, rfl⟩ := step_write_error hputting h hstep
      exact .failed err (activity_setActivity_self t _) fun name _ => rfl
    · obtain ⟨rfl, rfl⟩ := step_write_more (by simp) hputting h hstep
      exact wrote_of_assign (by simpa using hpieces)
  | begun written pieces hfile hpieces =>
    cases pieces with
    | nil =>
      obtain rfl : written = content := by simpa using hpieces
      have hne := (temporaryName_ne_fileName key mark key).symm
      rcases attempt_rename hfile refused (fileName key) with ⟨err, h⟩ | h
      · obtain ⟨rfl, rfl⟩ := step_write_error hputting h hstep
        refine .failed err (activity_setActivity_self t _) fun name hname => ?_
        simp [find?_remove, hname]
      · obtain ⟨rfl, rfl⟩ := step_write_last hputting h hstep
        refine .published (activity_setActivity_self t _) (by simp [find?_assign]) ?_
        intro name hname hfile
        simp [find?_assign, find?_remove, hname, hfile]
    | cons piece pieces =>
      rcases attempt_append hfile refused piece with ⟨err, h⟩ | h
      · obtain ⟨rfl, rfl⟩ := step_write_error hputting h hstep
        exact .failed err (activity_setActivity_self t _) fun name _ => rfl
      · obtain ⟨rfl, rfl⟩ := step_write_more (by simp) hputting h hstep
        exact wrote_of_assign (by simpa using hpieces)

namespace Wrote

theorem own (h : Wrote s s' t key mark content e) {name : String}
    (hname : (s'.activity t).temporary? = some name) : name = temporaryName key mark := by
  cases h with
  | failed err hidle hsame => rw [hidle] at hname; cases hname
  | underway ws hputting hwrites hown hsame => exact Option.some.inj (hname.symm.trans hown)
  | published hidle hfile hsame => rw [hidle] at hname; cases hname

theorem completes (h : Wrote s s' t key mark content e) {key' : String} {content' : List β}
    (hputting : s'.activity t = .putting key' content' ws) :
    (key', content') = (key, content) ∧ s'.directory.Completes key mark content ws := by
  cases h with
  | failed err hidle hsame => rw [hidle] at hputting; cases hputting
  | underway ws' hputting' hwrites hown hsame =>
    rw [hputting'] at hputting
    cases hputting
    exact ⟨rfl, hwrites⟩
  | published hidle hfile hsame => rw [hidle] at hputting; cases hputting

theorem same (h : Wrote s s' t key mark content e) {name : String}
    (hown : name ≠ temporaryName key mark) (hname : name ≠ fileName key) :
    s'.directory.find? name = s.directory.find? name := by
  cases h with
  | failed err hidle hsame => exact hsame name hown
  | underway ws hputting hwrites hown' hsame => exact hsame name hown
  | published hidle hfile hsame => exact hsame name hown hname

/-- A key has what is published in its file, and otherwise what it had. -/
theorem find?_fileName (h : Wrote s s' t key mark content e) (key' : String) :
    s'.directory.find? (fileName key') =
      ((e.publishes (fileName key')).map .file).or (s.directory.find? (fileName key')) := by
  have hne := (temporaryName_ne_fileName key mark key').symm
  cases h with
  | failed err hidle hsame => exact hsame _ hne
  | underway ws hputting hwrites hown hsame => exact hsame _ hne
  | published hidle hfile hsame =>
    by_cases heq : fileName key = fileName key'
    · rw [← heq, hfile]
      simp [Event.publishes]
    · rw [hsame _ hne (Ne.symm heq)]
      simp [Event.publishes, heq]

end Wrote

end Write

/-! ## What holds of all threads at all times -/

/-- What a history leaves behind in a store that has the files of `found` at first. Writers have
files of their own, and each key has what was last published. -/
structure Sound (found : Directory β) (history : List (Turn β × Event β)) (s : Threads β) :
    Prop where
  file : ∀ key, s.directory.find? (fileName key) =
    ((lastPublished history key).map .file).or (found.find? (fileName key))
  completes : ∀ t key content ws, s.activity t = .putting key content ws →
    ∃ mark, s.directory.Completes key mark content ws
  begun : ∀ t key content ws, s.activity t = .putting key content ws →
    lastBegun history t = some (key, content)
  apart : ∀ t t' name, t ≠ t' → (s.activity t).temporary? = some name →
    (s.activity t').temporary? ≠ some name

namespace Sound

variable {found : Directory β} {history : List (Turn β × Event β)}

theorem initial (found : Directory β) : Sound found [] (initial found) where
  file key := rfl
  completes t key content ws h := by cases h
  begun t key content ws h := by cases h
  apart t t' name hne h := by cases h

/-- A thread that writes nothing turns to something else. -/
theorem setActivity (h : Sound found history s) {t : Nat} {a : Activity β} {x : Turn β × Event β}
    (hpublishes : ∀ name, x.2.publishes name = none) (hbegins : ∀ t', t' ≠ t → x.1.begins t' = none)
    (hown : a.temporary? = none)
    (hputting : ∀ key content ws, a = .putting key content ws →
      (∃ mark, s.directory.Completes key mark content ws) ∧ x.1.begins t = some (key, content)) :
    Sound found (history ++ [x]) (s.setActivity t a) where
  file key := by
    rw [lastPublished_concat, hpublishes]
    exact h.file key
  completes t' key content ws ht' := by
    by_cases heq : t' = t
    · subst heq
      rw [activity_setActivity_self] at ht'
      exact (hputting key content ws ht').1
    · rw [activity_setActivity_of_ne heq] at ht'
      exact h.completes t' key content ws ht'
  begun t' key content ws ht' := by
    rw [lastBegun_concat]
    by_cases heq : t' = t
    · subst heq
      rw [activity_setActivity_self] at ht'
      rw [(hputting key content ws ht').2, Option.some_or]
    · rw [activity_setActivity_of_ne heq] at ht'
      rw [hbegins t' heq, Option.none_or]
      exact h.begun t' key content ws ht'
  apart t₁ t₂ name hne h₁ h₂ := by
    by_cases heq₁ : t₁ = t
    · subst heq₁
      rw [activity_setActivity_self, hown] at h₁
      cases h₁
    · by_cases heq₂ : t₂ = t
      · subst heq₂
        rw [activity_setActivity_self, hown] at h₂
        cases h₂
      · rw [activity_setActivity_of_ne heq₁] at h₁
        rw [activity_setActivity_of_ne heq₂] at h₂
        exact h.apart t₁ t₂ name hne h₁ h₂

/-- Nobody else has the file that a thread writes: when it was made, its name was not in use. -/
theorem ne_of_step (h : Sound found history s) {t t' : Nat} {refused : Bool} {key mark : String}
    {content : List β} {ws : List (Write β)} {e : Event β}
    (hputting : s.activity t = .putting key content ws)
    (hwrites : s.directory.Completes key mark content ws)
    (hstep : s.step (.write t refused) = some (e, s')) (hne : t' ≠ t) :
    (s.activity t').temporary? ≠ some (temporaryName key mark) := by
  intro hown
  cases hwrites with
  | begun written pieces hfile hpieces =>
    refine h.apart t t' _ hne.symm ?_ hown
    rw [hputting]
    exact temporary?_rest key mark content pieces
  | unbegun pieces hpieces =>
    have hfree := isFree_of_step hputting hstep
    cases ha : s.activity t' with
    | idle => rw [ha] at hown; cases hown
    | getting key' => rw [ha] at hown; cases hown
    | putting key' content' ws' =>
      obtain ⟨mark', hwrites'⟩ := h.completes t' key' content' ws' ha
      rw [ha] at hown
      obtain ⟨-, written, hfile⟩ := hwrites'.exists_file hown
      simp [isFree, hfile] at hfree

/-- Only a thread that puts a content writes. -/
theorem wrote (h : Sound found history s) {t : Nat} {refused : Bool} {e : Event β}
    (hstep : s.step (.write t refused) = some (e, s')) :
    ∃ key mark content ws, s.activity t = .putting key content ws ∧
      s.directory.Completes key mark content ws ∧ Wrote s s' t key mark content e := by
  cases ha : s.activity t with
  | idle => simp [step, ha] at hstep
  | getting key => simp [step, ha] at hstep
  | putting key content ws =>
    obtain ⟨mark, hwrites⟩ := h.completes t key content ws ha
    exact ⟨key, mark, content, ws, rfl, hwrites, wrote_of_step ha hwrites hstep⟩

theorem write (h : Sound found history s) {t : Nat} {refused : Bool} {e : Event β}
    (hstep : s.step (.write t refused) = some (e, s')) :
    Sound found (history ++ [(.write t refused, e)]) s' := by
  obtain ⟨key, mark, content, ws, hputting, hwrites, hwrote⟩ := h.wrote hstep
  have hother {t' : Nat} (hne : t' ≠ t) := activity_of_step_write hne hstep
  have howner {t' : Nat} (hne : t' ≠ t) := h.ne_of_step hputting hwrites hstep hne
  have hbegun (t' : Nat) :
      lastBegun (history ++ [(.write t refused, e)]) t' = lastBegun history t' := by
    rw [lastBegun_concat]
    rfl
  refine ⟨fun key' => ?_, fun t' key' content' ws' ht' => ?_, fun t' key' content' ws' ht' => ?_,
    fun t₁ t₂ name hne h₁ h₂ => ?_⟩
  · rw [lastPublished_concat, hwrote.find?_fileName, h.file, Option.map_or, Option.or_assoc]
  · by_cases heq : t' = t
    · subst heq
      obtain ⟨hsame, hcompletes⟩ := hwrote.completes ht'
      cases hsame
      exact ⟨mark, hcompletes⟩
    · rw [hother heq] at ht'
      obtain ⟨mark', hwrites'⟩ := h.completes t' key' content' ws' ht'
      refine ⟨mark', hwrites'.congr fun hown => hwrote.same ?_ (temporaryName_ne_fileName _ _ _)⟩
      intro hsame
      rw [hsame, ← ht'] at hown
      exact howner heq hown
  · rw [hbegun]
    by_cases heq : t' = t
    · subst heq
      rw [(hwrote.completes ht').1]
      exact h.begun t' key content ws hputting
    · rw [hother heq] at ht'
      exact h.begun t' key' content' ws' ht'
  · by_cases heq₁ : t₁ = t
    · subst heq₁
      rw [hother hne.symm, hwrote.own h₁] at h₂
      exact howner hne.symm h₂
    · rw [hother heq₁] at h₁
      by_cases heq₂ : t₂ = t
      · subst heq₂
        rw [hwrote.own h₂] at h₁
        exact howner hne h₁
      · rw [hother heq₂] at h₂
        exact h.apart t₁ t₂ name hne h₁ h₂

/-- A thread turns to reading, or has an answer, and begins nothing. -/
theorem answer (h : Sound found history s) {t : Nat} {a : Activity β} {x : Turn β × Event β}
    (hpublishes : ∀ name, x.2.publishes name = none) (hbegins : ∀ t', x.1.begins t' = none)
    (ha : a = .idle ∨ ∃ key, a = .getting key) :
    Sound found (history ++ [x]) (s.setActivity t a) := by
  refine h.setActivity hpublishes (fun t' _ => hbegins t') ?_ ?_
  · rcases ha with rfl | ⟨key, rfl⟩ <;> rfl
  · rintro key content ws rfl
    rcases ha with ha | ⟨key', ha⟩ <;> cases ha

theorem step (h : Sound found history s) {turn : Turn β} {e : Event β}
    (hstep : s.step turn = some (e, s')) : Sound found (history ++ [(turn, e)]) s' := by
  cases stepped_of_step hstep with
  | begun t key mark pieces hidle =>
    refine h.setActivity (fun name => rfl) (fun t' hne => if_neg (Ne.symm hne)) rfl ?_
    intro key' content ws heq
    cases heq
    exact ⟨⟨mark, .unbegun pieces rfl⟩, if_pos rfl⟩
  | written t refused e s' hstep => exact h.write hstep
  | missed t key hidle =>
    have hnext := h.answer (x := (.look t key, .got key (s.directory.get key))) (t := t)
      (fun name => rfl) (fun t' => rfl) (.inl rfl)
    rwa [setActivity_of_eq hidle] at hnext
  | found t key hidle =>
    exact h.answer (fun name => rfl) (fun t' => rfl) (.inr ⟨key, rfl⟩)
  | gotten t key hgetting => exact h.answer (fun name => rfl) (fun t' => rfl) (.inl rfl)

theorem advance (h : Sound found history s) {turn : Turn β}
    {next : List (Turn β × Event β) × Threads β} (hnext : advance (history, s) turn = some next) :
    Sound found next.1 next.2 := by
  obtain ⟨⟨e, s'⟩, hstep, rfl⟩ := Option.map_eq_some_iff.mp hnext
  exact h.step hstep

theorem foldlM_advance {turns : List (Turn β)} {first last : List (Turn β × Event β) × Threads β}
    (h : Sound found first.1 first.2) (hrun : turns.foldlM Threads.advance first = some last) :
    Sound found last.1 last.2 := by
  induction turns generalizing first with
  | nil =>
    cases hrun
    exact h
  | cons turn turns ih =>
    rw [List.foldlM_cons] at hrun
    obtain ⟨next, hnext, hrest⟩ := Option.bind_eq_some_iff.mp hrun
    exact ih (h.advance hnext) hrest

end Sound

/-! ## A thread on its own -/

/-- A thread has come to the end of a put, with a result and what it leaves. -/
def Ended (t : Nat) (key : String) (content : List β)
    (done : Except StoreError Unit × Directory β) (last : List (Turn β × Event β) × Threads β) :
    Prop :=
  (∃ before turn, last.1 = before ++ [(turn, .put key content done.1)]) ∧
    last.2.directory = done.2 ∧ last.2.activity t = .idle

section Alone

variable {t : Nat} {key : String} {content : List β} {w : Write β} {ws : List (Write β)}
  (history : List (Turn β × Event β))

theorem advance_eq {turn : Turn β} {e : Event β} (h : s.step turn = some (e, s')) :
    advance (history, s) turn = some (history ++ [(turn, e)], s') := by
  rw [advance, h]
  rfl

theorem ended_of_error {refused : Bool} {err : StoreError} {d : Directory β}
    (hputting : s.activity t = .putting key content (w :: ws)) (hfree : isFree s.directory w)
    (hw : s.directory.attempt refused w = (.error err, d)) :
    ∃ last, [Turn.write t refused].foldlM advance (history, s) = some last ∧
      Ended t key content (.error err, d) last := by
  obtain ⟨e, s', hstep⟩ := exists_step_write hputting hfree refused
  obtain ⟨rfl, rfl⟩ := step_write_error hputting hw hstep
  exact ⟨_, by rw [List.foldlM_cons, advance_eq _ hstep]; rfl, ⟨history, _, rfl⟩, rfl,
    activity_setActivity_self t _⟩

/-- By induction on the writes, all of which but the first are possible in any state. -/
theorem exists_ended_of_putting (stop : Option Nat)
    (hputting : s.activity t = .putting key content (w :: ws)) (hfree : isFree s.directory w)
    (hws : ∀ w' ∈ ws, ∀ d, isFree d w') :
    ∃ (turns : List (Turn β)) (last : List (Turn β × Event β) × Threads β),
      turns.foldlM advance (history, s) = some last ∧
        Ended t key content (s.directory.publishUntil stop (w :: ws)) last := by
  induction ws generalizing s w stop history with
  | nil =>
    rcases hw : s.directory.attempt (stop == some 0) w with ⟨result, d⟩
    rw [publishUntil, hw]
    cases result with
    | error err => exact ⟨_, ended_of_error history hputting hfree hw⟩
    | ok u =>
      obtain ⟨e, s', hstep⟩ := exists_step_write hputting hfree (stop == some 0)
      obtain ⟨rfl, rfl⟩ := step_write_last hputting hw hstep
      refine ⟨[.write t (stop == some 0)], _,
        by rw [List.foldlM_cons, advance_eq _ hstep]; rfl, ⟨history, _, rfl⟩, rfl, ?_⟩
      exact activity_setActivity_self t _
  | cons w' ws ih =>
    rcases hw : s.directory.attempt (stop == some 0) w with ⟨result, d⟩
    rw [publishUntil, hw]
    cases result with
    | error err => exact ⟨_, ended_of_error history hputting hfree hw⟩
    | ok u =>
      obtain ⟨e, s', hstep⟩ := exists_step_write hputting hfree (stop == some 0)
      obtain ⟨rfl, rfl⟩ := step_write_more (List.cons_ne_nil w' ws) hputting hw hstep
      have hnext : (({ s with directory := d } : Threads β).setActivity t
          (.putting key content (w' :: ws))).activity t = .putting key content (w' :: ws) :=
        activity_setActivity_self t _
      obtain ⟨turns, last, hturns, hended⟩ := ih
        (history ++ [(.write t (stop == some 0), .underway)]) (stop.map (· - 1)) hnext
        (hws w' List.mem_cons_self d) fun w'' hmem => hws w'' (List.mem_cons_of_mem w' hmem)
      refine ⟨.write t (stop == some 0) :: turns, last, ?_, hended⟩
      rw [List.foldlM_cons, advance_eq _ hstep]
      exact hturns

/-- A thread that is left alone puts a content as `publishUntil` does, with the same result, where
the disk may refuse any of its writes. -/
theorem exists_run_put_alone (stop : Option Nat) {mark : String} (pieces : List (List β))
    (hidle : s.activity t = .idle)
    (hfree : s.directory.find? (temporaryName key mark) = none) :
    ∃ (turns : List (Turn β)) (last : List (Turn β × Event β) × Threads β),
      s.run turns = some last ∧
        Ended t key pieces.flatten (s.directory.publishUntil stop
          (publication (temporaryName key mark) (fileName key) pieces)) last := by
  have hstep : s.step (.put t key mark pieces) = some (.underway, s.setActivity t (.putting key
      pieces.flatten (publication (temporaryName key mark) (fileName key) pieces))) := by
    simp only [step, hidle]
  have hrest (w : Write β) (hw : w ∈ pieces.map (.append (temporaryName key mark)) ++
      [.rename (temporaryName key mark) (fileName key)]) (d : Directory β) : isFree d w := by
    rcases List.mem_append.mp hw with hw | hw
    · obtain ⟨piece, -, rfl⟩ := List.mem_map.mp hw
      rfl
    · rw [List.mem_singleton.mp hw]
      rfl
  obtain ⟨turns, last, hturns, hended⟩ := exists_ended_of_putting
    [(.put t key mark pieces, .underway)] stop
    (activity_setActivity_self (s := s) t (.putting key pieces.flatten
      (publication (temporaryName key mark) (fileName key) pieces)))
    (by simp [isFree, hfree]) hrest
  refine ⟨.put t key mark pieces :: turns, last, ?_, hended⟩
  rw [run, List.foldlM_cons, advance_eq _ hstep]
  exact hturns

end Alone

/-! ## What is seen of the contents -/

/-- A key whose file can be read: its name is not too long, and was not that of a folder. -/
def Readable (found : Directory β) (key : String) : Prop :=
  isNameTooLong (fileName key) = false ∧ found.find? (fileName key) ≠ some .folder

/-- What a key has after a history: what was last published, or else what was there before. -/
def expected (found : Directory β) (history : List (Turn β × Event β)) (key : String) :
    Option (List β) :=
  (lastPublished history key).or (found.held key)

/-- Contents are seen as a whole or not at all. -/
structure Whole (found : Directory β) (history : List (Turn β × Event β)) (s : Threads β) :
    Prop where
  /-- Each key has the content published last. -/
  get_eq : ∀ key, Readable found key →
    s.directory.get key = .ok (expected found history key)
  /-- Each answer is the content published last when it is given, or that there is none. -/
  got : ∀ turn key result s', s.step turn = some (.got key result, s') →
    (∀ content, result = .ok content → content = expected found history key) ∧
      (Readable found key → ∃ content, result = .ok content)
  /-- A content is published by the thread that put it, all of it and under its key. -/
  published : ∀ turn key content s', s.step turn = some (.put key content (.ok ()), s') →
    ∃ t refused, turn = .write t refused ∧ lastBegun history t = some (key, content)
  /-- What publishes nothing, such as each step of a put that fails, changes no answer. -/
  unchanged : ∀ turn e s', s.step turn = some (e, s') →
    (∀ key content, e ≠ .put key content (.ok ())) →
      ∀ key, s'.directory.get key = s.directory.get key

namespace Sound

variable {found : Directory β} {history : List (Turn β × Event β)}

/-- What can be read of a key is what is expected of it. -/
theorem eq_expected (h : Sound found history s) {key : String} {content : Option (List β)}
    (hget : s.directory.get key = .ok content) : content = expected found history key := by
  unfold Directory.get Directory.read at hget
  rw [h.file key] at hget
  unfold expected held
  split at hget
  · cases hget
  · cases hpublished : lastPublished history key with
    | some c =>
      rw [hpublished] at hget
      exact (Except.ok.inj hget).symm
    | none =>
      rw [hpublished, Option.map_none, Option.none_or] at hget
      rw [Option.none_or]
      cases hfound : found.find? (fileName key) with
      | none => rw [hfound] at hget; exact (Except.ok.inj hget).symm
      | some e =>
        rw [hfound] at hget
        cases e with
        | file c => exact (Except.ok.inj hget).symm
        | folder => cases hget

theorem exists_get (h : Sound found history s) {key : String} (hkey : Readable found key) :
    ∃ content, s.directory.get key = .ok content := by
  unfold Directory.get Directory.read
  rw [if_neg (by simp [hkey.1]), h.file key]
  cases lastPublished history key with
  | some c => exact ⟨some c, rfl⟩
  | none =>
    cases hfound : found.find? (fileName key) with
    | none => exact ⟨none, rfl⟩
    | some e =>
      cases e with
      | file content => exact ⟨some content, rfl⟩
      | folder => exact absurd hfound hkey.2

/-- An answer is what the key has at that moment. -/
theorem eq_get_of_got (h : Sound found history s) {turn : Turn β} {key : String}
    {result : Except StoreError (Option (List β))}
    (hstep : s.step turn = some (.got key result, s')) : result = s.directory.get key := by
  cases stepped_of_step hstep with
  | written t refused e s' hstep =>
    obtain ⟨_, _, _, _, -, -, hwrote⟩ := h.wrote hstep
    cases hwrote
  | missed t key hidle => rfl
  | gotten t key hgetting => rfl

/-- The thread that publishes a content had begun to put it. -/
theorem lastBegun_of_put (h : Sound found history s) {turn : Turn β} {key : String}
    {content : List β} (hstep : s.step turn = some (.put key content (.ok ()), s')) :
    ∃ t refused, turn = .write t refused ∧ lastBegun history t = some (key, content) := by
  cases stepped_of_step hstep with
  | written t refused e s' hstep =>
    obtain ⟨key', mark, content', ws, hputting, -, hwrote⟩ := h.wrote hstep
    cases hwrote
    exact ⟨t, refused, rfl, h.begun t key content ws hputting⟩

theorem get_eq_get (h : Sound found history s) {turn : Turn β} {e : Event β}
    (hstep : s.step turn = some (e, s')) (hquiet : ∀ key content, e ≠ .put key content (.ok ()))
    (key : String) : s'.directory.get key = s.directory.get key := by
  have hpublishes : e.publishes (fileName key) = none := by
    cases e with
    | underway => rfl
    | got key result => rfl
    | put key' content result =>
      cases result with
      | error err => rfl
      | ok u => exact absurd rfl (hquiet key' content)
  have hfile : s'.directory.find? (fileName key) = s.directory.find? (fileName key) := by
    rw [(h.step hstep).file, h.file, lastPublished_concat, hpublishes, Option.none_or]
  rw [Directory.get, Directory.read, hfile, Directory.get, Directory.read]

theorem whole (h : Sound found history s) : Whole found history s where
  get_eq key hkey := by
    obtain ⟨content, hget⟩ := h.exists_get hkey
    rw [hget, h.eq_expected hget]
  got turn key result s' hstep := by
    have hresult := h.eq_get_of_got hstep
    exact ⟨fun content hok => h.eq_expected (hresult ▸ hok),
      fun hkey => hresult ▸ h.exists_get hkey⟩
  published turn key content s' hstep := h.lastBegun_of_put hstep
  unchanged turn e s' hstep hquiet key := h.get_eq_get hstep hquiet key

end Sound

/-- At any time of any run of any number of threads contents are seen as a whole or not at all. -/
theorem contents_whole {found : Directory β} {turns : List (Turn β)}
    {history : List (Turn β × Event β)} (h : (initial found).run turns = some (history, s)) :
    Whole found history s :=
  ((Sound.initial found).foldlM_advance h).whole

/-- Two threads put contents under one key at a time, and a third one gets what is there. The last
put fails as the disk is full. -/
def twoWriters : List (Turn Nat) :=
  [.put 0 "k" "aaaaaaaa" [[1], [2]], .put 1 "k" "bbbbbbbb" [[3], [4]], .write 0 false,
    .write 1 false, .write 0 false, .look 2 "k", .write 1 false, .write 0 false, .write 0 false,
    .look 2 "k", .write 1 false, .write 1 false, .read 2, .put 0 "k" "cccccccc" [[5]],
    .write 0 false, .write 0 true]

theorem contents_whole_two_writers :
    ∃ history s, (initial empty).run twoWriters = some (history, s) ∧ Whole empty history s ∧
      s.directory.get "k" = .ok (some [3, 4]) := by
  have hget : ((initial empty).run twoWriters).map (fun x => x.2.directory.get "k") =
      some (.ok (some [3, 4])) := rfl
  obtain ⟨⟨history, s⟩, hrun, hk⟩ := Option.map_eq_some_iff.mp hget
  exact ⟨history, s, hrun, contents_whole hrun, hk⟩

end Threads

end Gridding.Store
