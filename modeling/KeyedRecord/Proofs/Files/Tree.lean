import KeyedRecord.Derive.ExpandDir
import KeyedRecord.Files.Tree

/-!
# What operations change in a tree

Writing a file changes what stands at the end of one way, `write_ok`, and making directories only
adds to a tree: `makeDirs_extends`.  A path that led somewhere leads there still, and one whose
directories were made leads to a directory: `makeDirs_ok`.

So a unit that is written changes no file but its own, whether or not it succeeds: `add_files`.
-/

set_option autoImplicit false

namespace KeyedRecord.Files.Tree

variable {t t' : Tree} {way : Way} {e : Entry}

/-! ## Entries -/

theorem find?_nil (t : Tree) : t.find? [] = some .directory := if_pos rfl

theorem ne_nil_of_find? (t : Tree) (h : t.find? way ≠ some .directory) : way ≠ [] := by
  rintro rfl
  exact h (find?_nil t)

theorem lookup_filter_ne (es : List (Way × Entry)) {w : Way} (hw : w ≠ way) :
    (es.filter fun (v, _) => v != way).lookup w = es.lookup w := by
  induction es with
  | nil => rfl
  | cons p es ih =>
    obtain ⟨v, e⟩ := p
    rw [List.filter_cons]
    by_cases hv : v = way
    · rw [if_neg (by simp [hv]), ih, hv, List.lookup_cons, beq_false_of_ne hw]
    · rw [if_pos (by simpa using hv), List.lookup_cons, List.lookup_cons, ih]

/-- Putting an entry changes what stands at its way and nothing else. -/
theorem find?_put (t : Tree) (hway : way ≠ []) (e : Entry) (w : Way) :
    (t.put way e).find? w = if w = way then some e else t.find? w := by
  unfold find? put
  by_cases hw : w = way
  · simp [hw, hway]
  · rw [if_neg hw, List.lookup_cons, beq_false_of_ne hw, lookup_filter_ne _ hw]

/-! ## Growth -/

/-- What stands in the one tree stands in the other, which has more directories at most. -/
structure Extends (t t' : Tree) : Prop where
  keeps : ∀ w e, t.find? w = some e → t'.find? w = some e
  adds : ∀ w e, t'.find? w = some e → t.find? w = some e ∨ e = .directory

namespace Extends

theorem refl (t : Tree) : Extends t t := ⟨fun _ _ h => h, fun _ _ h => .inl h⟩

theorem trans {t'' : Tree} (h : Extends t t') (h' : Extends t' t'') : Extends t t'' :=
  ⟨fun w e hw => h'.keeps w e (h.keeps w e hw), fun w e hw =>
    (h'.adds w e hw).elim (h.adds w e) .inr⟩

/-- The files are the same. -/
theorem file_iff (h : Extends t t') (w : Way) (text : String) :
    t'.find? w = some (.file text) ↔ t.find? w = some (.file text) :=
  ⟨fun hw => (h.adds w _ hw).resolve_right nofun, h.keeps w _⟩

/-- A path that leads somewhere leads there still. -/
theorem follow (h : Extends t t') {cs : List Component} {from_ : Way}
    (hf : t.follow from_ cs = .ok way) : t'.follow from_ cs = .ok way := by
  induction cs generalizing from_ with
  | nil => exact hf
  | cons c cs ih =>
    simp only [Tree.follow] at hf ⊢
    cases hfind : t.find? from_ with
    | none => simp [hfind] at hf
    | some e =>
      rw [h.keeps _ _ hfind]
      cases e with
      | file text => simp [hfind] at hf
      | directory =>
        simp only [hfind] at hf ⊢
        cases c with
        | root | here | parent => exact ih hf
        | name s =>
          dsimp only at hf ⊢
          split at hf
          · cases hf
          · rw [if_neg ‹_›]
            exact ih hf

theorem isDir (h : Extends t t') {cs : List Component} (hd : t.isDir cs = true) :
    t'.isDir cs = true := by
  unfold Tree.isDir at hd ⊢
  cases hr : t.resolve cs with
  | error f => simp [hr] at hd
  | ok way =>
    rw [show t'.resolve cs = .ok way from h.follow hr]
    simp only [hr, beq_iff_eq] at hd ⊢
    exact h.keeps way _ hd

end Extends

/-! ## Directories -/

variable {cs : List Component}

/-- A directory that is made was not there, and is all that is added. -/
theorem makeDir_ok (h : t.makeDir cs = .ok t') : Extends t t' ∧ t'.isDir cs = true := by
  unfold makeDir at h
  cases hc : checkPath cs (byteLength cs - 1) with
  | error f => simp [hc, bind, Except.bind] at h
  | ok _ =>
    cases hr : t.resolve cs with
    | error f => simp [hc, hr, bind, Except.bind] at h
    | ok way =>
      simp only [hc, hr, bind, Except.bind] at h
      cases hf : t.find? way with
      | some e =>
        rw [hf] at h
        cases h
      | none =>
        rw [hf] at h
        cases h
        have hway : way ≠ [] := ne_nil_of_find? t (by simp [hf])
        have hext : Extends t (t.put way .directory) := by
          refine ⟨fun w e hw => ?_, fun w e hw => ?_⟩
          · rw [find?_put t hway, if_neg (by rintro rfl; simp [hf] at hw), hw]
          · rw [find?_put t hway] at hw
            split at hw
            · exact .inr (Option.some.inj hw).symm
            · exact .inl hw
        refine ⟨hext, ?_⟩
        unfold isDir
        rw [show (t.put way .directory).resolve cs = .ok way from hext.follow hr]
        simp [find?_put t hway]

variable {answer : Except Failure Unit} {below : List (List Component)}

theorem makeEach_extends (h : t.makeEach below = (answer, t')) : Extends t t' := by
  induction below generalizing t with
  | nil =>
    cases h
    exact .refl _
  | cons cs below ih =>
    rw [makeEach] at h
    cases hmake : t.makeDir cs with
    | ok s =>
      simp only [hmake] at h
      exact (makeDir_ok hmake).1.trans (ih h)
    | error f =>
      simp only [hmake] at h
      split at h
      · exact ih h
      · cases h
        exact .refl _

theorem makeEach_ok (h : t.makeEach below = (.ok (), t')) : ∀ cs ∈ below, t'.isDir cs = true := by
  induction below generalizing t with
  | nil => simp
  | cons cs below ih =>
    rw [makeEach] at h
    cases hmake : t.makeDir cs with
    | ok s =>
      simp only [hmake] at h
      exact List.forall_mem_cons.mpr
        ⟨(makeEach_extends h).isDir (makeDir_ok hmake).2, ih h⟩
    | error f =>
      simp only [hmake] at h
      split at h
      · exact List.forall_mem_cons.mpr ⟨(makeEach_extends h).isDir (And.right ‹_›), ih h⟩
      · cases h

theorem makeUp_extends {fuel : Nat} (h : t.makeUp fuel below cs = (answer, t')) : Extends t t' := by
  induction fuel generalizing below cs with
  | zero => exact makeEach_extends h
  | succ fuel ih =>
    rw [makeUp] at h
    cases hup : Path.parent? cs with
    | none => exact makeEach_extends (by simpa [hup] using h)
    | some up =>
      simp only [hup] at h
      cases hmake : t.makeDir cs with
      | ok s =>
        simp only [hmake] at h
        exact (makeDir_ok hmake).1.trans (makeEach_extends h)
      | error f =>
        simp only [hmake] at h
        split at h
        · exact ih h
        split at h
        · exact makeEach_extends h
        · cases h
          exact .refl _

/-- The directories passed on the way up are there in the end. -/
theorem makeUp_ok {fuel : Nat} (h : t.makeUp fuel below cs = (.ok (), t')) :
    ∀ b ∈ below, t'.isDir b = true := by
  induction fuel generalizing below cs with
  | zero => exact makeEach_ok h
  | succ fuel ih =>
    rw [makeUp] at h
    cases hup : Path.parent? cs with
    | none => exact makeEach_ok (by simpa [hup] using h)
    | some up =>
      simp only [hup] at h
      cases hmake : t.makeDir cs with
      | ok s =>
        simp only [hmake] at h
        exact makeEach_ok h
      | error f =>
        simp only [hmake] at h
        split at h
        · exact fun b hb => ih h b (List.mem_cons_of_mem _ hb)
        split at h
        · exact makeEach_ok h
        · cases h

/-- Only the first component of a path can be its root. -/
theorem root_not_mem_tail_components (path : String) : .root ∉ (Path.components path).tail := by
  have hlater (pieces : List String) : .root ∉ pieces.filterMap Path.laterComponent := by
    intro h
    obtain ⟨piece, -, hpiece⟩ := List.mem_filterMap.mp h
    unfold Path.laterComponent at hpiece
    split at hpiece
    · cases hpiece
    · split at hpiece <;> cases hpiece
  unfold Path.components
  split
  · simp
  · rename_i first rest _
    dsimp only
    split
    · exact hlater rest
    split
    · exact hlater rest
    · cases Path.laterComponent first with
      | none => exact fun h => hlater rest (List.mem_of_mem_tail h)
      | some c => exact hlater rest

/-- The empty path and the root are directories. -/
theorem isDir_of_parent?_eq_none (t : Tree) {path : String}
    (h : Path.parent? (Path.components path) = none) : t.isDir (Path.components path) = true := by
  have hroot := root_not_mem_tail_components path
  rcases hcs : Path.components path with _ | ⟨c, cs⟩
  · simp [isDir, resolve, follow, find?_nil]
  rw [hcs] at h hroot
  unfold Path.parent? at h
  split at h
  · simp at *
  · rename_i hlast
    rcases cs with _ | ⟨c', cs⟩
    · obtain rfl : c = .root := by simpa using hlast
      simp [isDir, resolve, follow, find?_nil]
    · rw [List.getLast?_cons_cons] at hlast
      exact absurd (List.mem_of_getLast? hlast) hroot
  · cases h

/-- **Directories that were made are there, and nothing else has changed.**  A call that fails keeps
what it made until then. -/
theorem makeDirs_extends {path : String} (h : t.makeDirs path = (answer, t')) :
    Extends t t' := makeUp_extends h

theorem makeDirs_ok {path : String} (h : t.makeDirs path = (.ok (), t')) :
    t'.isDir (Path.components path) = true := by
  unfold makeDirs at h
  rw [makeUp] at h
  cases hup : Path.parent? (Path.components path) with
  | none =>
    simp only [hup] at h
    exact (makeEach_extends h).isDir (isDir_of_parent?_eq_none t hup)
  | some up =>
    simp only [hup] at h
    cases hmake : t.makeDir (Path.components path) with
    | ok s =>
      simp only [hmake] at h
      exact (makeEach_extends h).isDir (makeDir_ok hmake).2
    | error f =>
      simp only [hmake] at h
      split at h
      · exact makeUp_ok h _ List.mem_cons_self
      split at h
      · exact (makeEach_extends h).isDir (And.right ‹_›)
      · cases h

/-! ## Files -/

/-- **A file that was written holds its text, and nothing else has changed.**  What it held is lost.
-/
theorem write_ok {path text : String} (h : t.write path text = .ok t') :
    ∃ way, t.resolve (Path.components path) = .ok way ∧ t.find? way ≠ some .directory ∧
      t'.find? way = some (.file text) ∧ ∀ w, w ≠ way → t'.find? w = t.find? w := by
  unfold write at h
  cases hc : checkPath (Path.components path) path.utf8ByteSize with
  | error f => simp [hc, bind, Except.bind] at h
  | ok _ =>
    cases hr : t.resolve (Path.components path) with
    | error f => simp [hc, hr, bind, Except.bind] at h
    | ok way =>
      simp only [hc, hr, bind, Except.bind] at h
      have hput : t.find? way ≠ some .directory ∧ t' = t.put way (.file text) := by
        split at h
        · cases h
        · exact ⟨‹_›, (Except.ok.inj h).symm⟩
      obtain ⟨hfind, rfl⟩ := hput
      have hway := ne_nil_of_find? t hfind
      exact ⟨way, rfl, hfind,
        by simp [find?_put t hway], fun w hw => by simp [find?_put t hway, hw]⟩

open Derive in
/-- **Writing a unit changes no file but its own.**  Where it is reported as written its file holds
the text of the unit, and otherwise all files are as they were. -/
theorem add_files (d : ExpandDir) (name : String) (unit : UnitCode) (events : List Event)
    (h : d.add t name unit = (t', events)) :
    (events = [.unitWritten (d.pathFor name)] ∧
      ∃ way, t'.find? way = some (.file (Source.canonicalText unit)) ∧
        ∀ w text, w ≠ way → (t'.find? w = some (.file text) ↔ t.find? w = some (.file text))) ∨
    ((∃ f : DumpFailure, events = [.dumpFailed name f.chain]) ∧
      ∀ w text, t'.find? w = some (.file text) ↔ t.find? w = some (.file text)) := by
  unfold ExpandDir.add ExpandDir.write at h
  cases hmake : t.makeDirs d.root with
  | mk made s =>
    have hext := makeDirs_extends hmake
    have hmake : FileSystem.makeDirs d.root t = (made, s) := hmake
    cases made with
    | error f =>
      simp only [hmake] at h
      cases h
      exact .inr ⟨⟨_, rfl⟩, hext.file_iff⟩
    | ok _ =>
      simp only [hmake] at h
      cases hwrite : s.write (d.pathFor name) (Source.canonicalText unit) with
      | error f =>
        have hwrite : FileSystem.write (d.pathFor name) (Source.canonicalText unit) s =
            (.error f, s) := by simp only [FileSystem.write, hwrite]
        simp only [hwrite] at h
        cases h
        exact .inr ⟨⟨_, rfl⟩, hext.file_iff⟩
      | ok s' =>
        obtain ⟨way, -, -, hfile, hothers⟩ := write_ok hwrite
        have hwrite : FileSystem.write (d.pathFor name) (Source.canonicalText unit) s =
            (.ok (), s') := by simp only [FileSystem.write, hwrite]
        simp only [hwrite] at h
        cases h
        exact .inl ⟨rfl, way, hfile, fun w text hw => by rw [hothers w hw, hext.file_iff]⟩

end KeyedRecord.Files.Tree
