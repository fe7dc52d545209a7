import Gridding.Proofs.Entries
import Gridding.Proofs.Store.Publication

/-!
# What a failed put leaves behind

A put that fails before its temporary file is made, or as that file is to take the name of the key's,
leaves the directory as it was. If the disk refuses anything in between, the temporary file stays,
with what was written of it.
-/

namespace Gridding.Store.Directory

variable {β : Type} {d : Directory β} {name target key mark : String} {pieces : List (List β)}

/-- Puts a content in pieces until the disk refuses a write. Before the file takes the name of the
key's it is closed, which writes nothing, and may be refused as any write may. -/
def putUntil (stop : Option Nat) (d : Directory β) (key mark : String) (pieces : List (List β)) :
    Except StoreError Unit × Directory β :=
  d.publishUntil stop (publication (temporaryName key mark) (fileName key) (pieces ++ [[]]))

/-! ## A file that comes and goes -/

theorem remove_of_find?_eq_none (h : d.find? name = none) : d.remove name = d := by
  have hne := lookup_eq_none_iff_forall_ne.mp h
  have hkept : d.entries.filter (fun e => !(e.1 == name)) = d.entries :=
    List.filter_eq_self.mpr fun e he => by simp [hne e he]
  rw [remove, hkept]

theorem remove_assign (d : Directory β) (name : String) (e : Entry β) :
    (d.assign name e).remove name = d.remove name := by
  simp [assign, remove, List.filter_append, List.filter_filter]

theorem assign_assign (d : Directory β) (name : String) (e e' : Entry β) :
    (d.assign name e).assign name e' = d.assign name e' := by
  rw [assign, remove_assign, assign]

theorem find?_assign_self (d : Directory β) (name : String) (e : Entry β) :
    (d.assign name e).find? name = some e := by
  rw [find?_assign, if_pos rfl]

theorem assign_ne_self (h : d.find? name = none) (e : Entry β) : d.assign name e ≠ d := by
  intro heq
  have hfound := find?_assign_self d name e
  rw [heq, h] at hfound
  cases hfound

/-! ## One write after the other -/

theorem attempt_append_assign (d : Directory β) (name : String) (written piece : List β) :
    (d.assign name (.file written)).attempt false (.append name piece) =
      (.ok (), d.assign name (.file (written ++ piece))) := by
  simp [attempt, write, find?_assign_self, assign_assign]

theorem publishUntil_create_of_long (hlong : isNameTooLong name) (stop : Option Nat)
    (ws : List (Write β)) : (d.publishUntil stop (.create name :: ws)).2 = d := by
  rcases attempt_create d (stop == some 0) name with ⟨e, h⟩ | h
  · rw [publishUntil, h]
  · cases hstop : stop == some 0 <;> simp [hstop, attempt, write, hlong] at h

theorem publishUntil_create (hshort : isNameTooLong name = false) (stop : Option Nat)
    (ws : List (Write β)) :
    d.publishUntil (stop.map (· + 1)) (.create name :: ws) =
      (d.assign name (.file [])).publishUntil stop ws := by
  have hcreated : d.attempt false (.create name) = (.ok (), d.assign name (.file [])) := by
    simp [attempt, write, hshort]
  have hstop : (stop.map (· + 1) == some 0) = false := by cases stop <;> rfl
  have hrest : (stop.map (· + 1)).map (· - 1) = stop := by cases stop <;> rfl
  rw [publishUntil, hstop, hcreated, hrest]

/-- The disk lets all pieces through if it refuses a later write. -/
theorem publishUntil_appends (stop : Option Nat) (written : List β) (ws : List (Write β)) :
    (d.assign name (.file written)).publishUntil (stop.map (· + pieces.length))
        (pieces.map (.append name) ++ ws) =
      (d.assign name (.file (written ++ pieces.flatten))).publishUntil stop ws := by
  induction pieces generalizing written with
  | nil =>
    rw [List.flatten_nil, List.append_nil]
    cases stop <;> rfl
  | cons piece pieces ih =>
    have hstop : (stop.map (· + (piece :: pieces).length) == some 0) = false := by
      cases stop <;> rfl
    have hrest : (stop.map (· + (piece :: pieces).length)).map (· - 1) =
        stop.map (· + pieces.length) := by
      cases stop <;> rfl
    rw [List.map_cons, List.cons_append, publishUntil, hstop, attempt_append_assign, hrest]
    dsimp only
    rw [ih, List.append_assoc, List.flatten_cons]

/-- If the file cannot take the name of the key's, nothing of it is left. -/
theorem publishUntil_rename_of_error (hfree : d.find? name = none) {written : List β}
    {stop : Option Nat} {e : StoreError}
    (hfailed : ((d.assign name (.file written)).publishUntil stop [.rename name target]).1 =
      .error e) :
    ((d.assign name (.file written)).publishUntil stop [.rename name target]).2 = d := by
  rcases attempt_rename (find?_assign_self d name (.file written)) (stop == some 0) target with
    ⟨e', h⟩ | h
  · rw [publishUntil, h]
    exact (remove_assign d name _).trans (remove_of_find?_eq_none hfree)
  · rw [publishUntil, h] at hfailed
    cases hfailed

/-! ## Publications that are stopped -/

/-- The disk refuses a piece: those before it are written. -/
theorem publishUntil_publication_of_lt (hshort : isNameTooLong name = false) {k : Nat}
    (hk : k < pieces.length) :
    d.publishUntil (some (k + 1)) (publication name target pieces) =
      (.error .refused, d.assign name (.file (pieces.take k).flatten)) := by
  have hsplit : pieces.map (Write.append name) =
      (pieces.take k).map (.append name) ++
        .append name pieces[k] :: (pieces.drop (k + 1)).map (.append name) := by
    rw [← List.map_cons, List.getElem_cons_drop, ← List.map_append, List.take_append_drop]
  have hstop : some k = (some 0).map (· + (pieces.take k).length) := by
    rw [List.length_take, Nat.min_eq_left (Nat.le_of_lt hk), Option.map_some, Nat.zero_add]
  rw [publication, List.cons_append, hsplit, List.append_assoc]
  refine (publishUntil_create hshort (some k) _).trans ?_
  rw [hstop, publishUntil_appends]
  rfl

/-- The disk refuses nothing until the file is to be renamed: all pieces are written. -/
theorem publishUntil_publication (hshort : isNameTooLong name = false) (stop : Option Nat) :
    d.publishUntil (stop.map (· + (pieces.length + 1))) (publication name target pieces) =
      (d.assign name (.file pieces.flatten)).publishUntil stop [.rename name target] := by
  have hstop : stop.map (· + (pieces.length + 1)) = (stop.map (· + pieces.length)).map (· + 1) := by
    cases stop <;> rfl
  rw [publication, List.cons_append, hstop, publishUntil_create hshort, publishUntil_appends,
    List.nil_append]

/-- Closing the file leaves it as it is. -/
theorem putUntil_none (d : Directory β) (key : String) (content : List β) :
    d.putUntil none key "00000000" [content] = d.put key content := by
  by_cases hkey : Fits key
  · have hwritten (pieces : List (List β)) :
        d.publishUntil none (publication (temporaryName key "00000000") (fileName key) pieces) =
          (d.assign (temporaryName key "00000000") (.file pieces.flatten)).publishUntil none
            [.rename (temporaryName key "00000000") (fileName key)] :=
      publishUntil_publication hkey none
    rw [putUntil, put, hwritten, hwritten, List.flatten_append, List.flatten_singleton,
      List.flatten_singleton, List.append_nil]
  · have hlong : isNameTooLong (temporaryName key "00000000") = true := by
      rwa [Fits, Bool.not_eq_false] at hkey
    rw [put_of_not_fits d hkey]
    simp [putUntil, publication, publishUntil, attempt, write, hlong]

/-- After `k` pieces the disk refuses the next one, or to close the file. -/
def Interrupted (stop : Option Nat) (key mark : String) (pieces : List (List β)) (k : Nat) : Prop :=
  isNameTooLong (temporaryName key mark) = false ∧ k ≤ pieces.length ∧ stop = some (k + 1)

section Failed

variable {stop : Option Nat} {k : Nat}

theorem exists_eq_map_add {n : Nat} (h : ∀ j ∈ stop, n ≤ j) :
    ∃ rest : Option Nat, stop = rest.map (· + n) := by
  cases stop with
  | none => exact ⟨none, rfl⟩
  | some j => exact ⟨some (j - n), by rw [Option.map_some, Nat.sub_add_cancel (h j rfl)]⟩

theorem putUntil_of_interrupted (h : Interrupted stop key mark pieces k) :
    d.putUntil stop key mark pieces =
      (.error .refused, d.assign (temporaryName key mark) (.file (pieces.take k).flatten)) := by
  obtain ⟨hshort, hk, rfl⟩ := h
  have hlength : k < (pieces ++ [[]]).length := by
    rw [List.length_append, List.length_singleton]
    omega
  rw [putUntil, publishUntil_publication_of_lt hshort hlength, List.take_append_of_le_length hk]

theorem putUntil_of_not_interrupted (hfree : d.find? (temporaryName key mark) = none)
    {e : StoreError} (hfailed : (d.putUntil stop key mark pieces).1 = .error e)
    (h : ∀ k, ¬ Interrupted stop key mark pieces k) : (d.putUntil stop key mark pieces).2 = d := by
  cases hlong : isNameTooLong (temporaryName key mark) with
  | true => exact publishUntil_create_of_long hlong stop _
  | false =>
    by_cases hfirst : stop = some 0
    · rw [hfirst]
      rfl
    · -- Neither the first write is refused nor one of the pieces, so it is the last one.
      have hlate : ∀ j ∈ stop, (pieces ++ [[]]).length + 1 ≤ j := by
        rintro (_ | k) hk
        · exact absurd hk hfirst
        · have hpieces : ¬ k ≤ pieces.length := fun hle => h k ⟨hlong, hle, hk⟩
          rw [List.length_append, List.length_singleton]
          omega
      obtain ⟨rest, rfl⟩ := exists_eq_map_add hlate
      rw [putUntil, publishUntil_publication hlong] at hfailed ⊢
      exact publishUntil_rename_of_error hfree hfailed

/-- A put that fails leaves the directory as it was exactly if it was not interrupted while it had a
temporary file. Otherwise that file stays, with the pieces written so far, and nothing else is
changed. -/
theorem failed_put_restores_iff {e : StoreError} (hfree : d.find? (temporaryName key mark) = none)
    (hfailed : (d.putUntil stop key mark pieces).1 = .error e) :
    ((d.putUntil stop key mark pieces).2 = d ↔ ∀ k, ¬ Interrupted stop key mark pieces k) ∧
      ∀ k, Interrupted stop key mark pieces k → (d.putUntil stop key mark pieces).2 =
        d.assign (temporaryName key mark) (.file (pieces.take k).flatten) := by
  have hleft (k : Nat) (h : Interrupted stop key mark pieces k) :
      (d.putUntil stop key mark pieces).2 =
        d.assign (temporaryName key mark) (.file (pieces.take k).flatten) := by
    rw [putUntil_of_interrupted h]
  refine ⟨⟨fun hsame k h => ?_, putUntil_of_not_interrupted hfree hfailed⟩, hleft⟩
  exact assign_ne_self hfree _ ((hleft k h).symm.trans hsame)

end Failed

/-- A folder has the name of the key's file, which shows only when the temporary file is there. -/
theorem failed_put_restores_folder :
    ((empty : Directory Nat).assign "k.srg" .folder).find? (temporaryName "k" "00000000") = none ∧
      (((empty : Directory Nat).assign "k.srg" .folder).putUntil none "k" "00000000" [[1], [2]]).1 =
        .error .isFolder ∧
      (((empty : Directory Nat).assign "k.srg" .folder).putUntil none "k" "00000000" [[1], [2]]).2 =
        (empty : Directory Nat).assign "k.srg" .folder := by
  refine ⟨rfl, rfl, ?_⟩
  exact (failed_put_restores_iff rfl (e := .isFolder) rfl).1.mpr fun k h => nomatch h.2.2

/-- The disk is full after the first of two pieces, and a file that no key has is left. -/
theorem interrupted_put_leaves_file :
    (empty : Directory Nat).find? (temporaryName "k" "00000000") = none ∧
      ((empty : Directory Nat).putUntil (some 2) "k" "00000000" [[1], [2]]).1 = .error .refused ∧
      ((empty : Directory Nat).putUntil (some 2) "k" "00000000" [[1], [2]]).2.names =
        ["k00000000.tmp"] ∧
      ((empty : Directory Nat).putUntil (some 2) "k" "00000000" [[1], [2]]).2 ≠ empty := by
  refine ⟨rfl, rfl, rfl, fun h => ?_⟩
  have hnames := congrArg names h
  cases hnames

end Gridding.Store.Directory
