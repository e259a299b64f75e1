import KeyedRecord.Proofs.Derive.Collection

/-!
# Expansion and the file system

Writing units for people to read never changes what an expansion answers.  Whatever the file system
does, an expansion answers what is generated into a fresh list of units; and it asks something of
the file system only for a declaration that is accepted, where a setting names a directory: to make
that directory, and to write the unit that it answers to the file of the unit's name.
`expand_answers` says so of a file system that keeps a list of what it was asked.
-/

set_option autoImplicit false

namespace KeyedRecord

/-! ## A file system that is watched -/

namespace Files

/-- Something that a file system was asked to do. -/
inductive Request where
  | makeDirs (path : String)
  | write (path text : String)
  deriving DecidableEq, Repr

/-- A file system, with everything that it was asked to do, in order. -/
structure Watched (σ : Type) where
  system : σ
  requests : List Request

namespace Watched

variable {σ : Type}

/-- A file system that has not been asked to do anything yet. -/
def fresh (fs : σ) : Watched σ := ⟨fs, []⟩

/-- The request is noted, and then passed on. -/
instance [FileSystem σ] : FileSystem (Watched σ) where
  makeDirs path w :=
    let (result, fs) := FileSystem.makeDirs path w.system
    (result, ⟨fs, w.requests ++ [.makeDirs path]⟩)
  write path text w :=
    let (result, fs) := FileSystem.write path text w.system
    (result, ⟨fs, w.requests ++ [.write path text]⟩)

end Watched

end Files

namespace Derive

open Source Files

variable {σ : Type} [FileSystem σ]

/-! ## Writing a unit -/

/-- What is asked of a file system to write a unit: the file is written only where the directory
could be made. -/
def ExpandDir.requests (d : ExpandDir) (fs : σ) (name : String) (unit : UnitCode) : List Request :=
  .makeDirs d.root ::
    if (FileSystem.makeDirs d.root fs).1 = .ok () then
      [.write (d.pathFor name) (canonicalText unit)]
    else []

theorem ExpandDir.write_watched (d : ExpandDir) (w : Watched σ) (name : String) (unit : UnitCode) :
    d.write w name unit = ((d.write w.system name unit).1,
      ⟨(d.write w.system name unit).2, w.requests ++ d.requests w.system name unit⟩) := by
  have hmake : FileSystem.makeDirs d.root w = ((FileSystem.makeDirs d.root w.system).1,
      (⟨(FileSystem.makeDirs d.root w.system).2, w.requests ++ [.makeDirs d.root]⟩ : Watched σ)) :=
      rfl
  unfold ExpandDir.write ExpandDir.requests
  rw [hmake]
  -- A request passed on is answered as it would be, so both ways fail at the same place.
  rcases FileSystem.makeDirs d.root w.system with ⟨- | -, fs⟩
  · simp
  · have hwrite (w : Watched σ) : FileSystem.write (d.pathFor name) (canonicalText unit) w =
        ((FileSystem.write (d.pathFor name) (canonicalText unit) w.system).1,
          (⟨(FileSystem.write (d.pathFor name) (canonicalText unit) w.system).2,
            w.requests ++ [.write (d.pathFor name) (canonicalText unit)]⟩ : Watched σ)) := rfl
    simp only [hwrite]
    rcases FileSystem.write (d.pathFor name) (canonicalText unit) fs with ⟨- | -, fs'⟩ <;>
      simp

/-- Writing with a report asks for the same, and reports the same. -/
theorem ExpandDir.add_watched (d : ExpandDir) (w : Watched σ) (name : String) (unit : UnitCode) :
    d.add w name unit =
      (⟨(d.add w.system name unit).1, w.requests ++ d.requests w.system name unit⟩,
      (d.add w.system name unit).2) := by
  unfold ExpandDir.add
  rw [ExpandDir.write_watched]
  rcases d.write w.system name unit with ⟨- | -, fs⟩ <;> rfl

/-! ## Expansions -/

theorem unitOf_of_unit? {item : Item} {u : NamedUnit} (h : unit? item = some u) :
    ∃ events, unitOf item = (.ok (some u), events) := by
  unfold unit? at h
  rcases hi : unitOf item with ⟨r | v, events⟩
  · rw [hi] at h
    cases h
  · rw [hi] at h
    cases h
    exact ⟨events, rfl⟩

/-- A declaration that is not answered with the name of a unit has none. -/
theorem unit?_eq_none {item : Item} {s : UnitList}
    (h : ∀ name, (generate item s).1 ≠ .ok (some name)) : unit? item = none := by
  refine Option.eq_none_iff_forall_ne_some.mpr fun u hu => ?_
  obtain ⟨d, hd, hname⟩ := unit?_eq_some_iff.mp hu
  exact h u.name (generate_answer_iff.mpr ⟨d, u.code, hd, hname⟩)

/-- A unit in a scope of its own, token by token. -/
theorem enclosed_eq (code : UnitCode) : UnitList.enclosed code =
    [.ident "const", .ident "_", .punct ':' false, .opening .paren, .closing .paren,
      .punct '=' false, .opening .brace] ++ code ++ [.closing .brace, .punct ';' false] := by
  simp [UnitList.enclosed, Code.w, Code.p, Code.paren, Code.brace, operatorTokens]

theorem finish_insert (name : String) (code : UnitCode) :
    UnitList.finish ((.empty : UnitList).insert name code) = UnitList.enclosed code :=
  List.append_nil _

/-- The unit of a declaration, and nothing else, is answered and written. -/
theorem expand_eq (item : Item) (setting : Option String) (fs : σ) :
    expand item setting fs = match unitOf item with
      | (.error r, events) => (.error r, fs, events)
      | (.ok none, events) => (.ok [], fs, events)
      | (.ok (some u), events) =>
        let added := events ++ [.unitAdded u.name]
        match ExpandDir.ofSetting setting with
        | some d => (.ok (UnitList.enclosed u.code), (d.add fs u.name u.code).1,
            added ++ (d.add fs u.name u.code).2)
        | none => (.ok (UnitList.enclosed u.code), fs, added) := by
  unfold expand generate
  rcases unitOf item with ⟨- | - | u, events⟩
  · rfl
  · rfl
  · have hget : ((.empty : UnitList).insert u.name u.code).get? u.name = some u.code := by
      rw [Table.get?_insert, if_pos rfl]
    simp only [hget, finish_insert]
    cases ExpandDir.ofSetting setting <;> rfl

/-- What an expansion answers depends neither on the setting nor on the file system. -/
theorem answer_expand (item : Item) (setting : Option String) (fs : σ) :
    (expand item setting fs).1 =
      (generate item .empty).1.map fun _ => UnitList.finish (generate item .empty).2.1 := by
  rw [expand_eq]
  unfold generate
  rcases unitOf item with ⟨- | - | u, events⟩
  · rfl
  · rfl
  · simp only [Except.map, finish_insert]
    cases ExpandDir.ofSetting setting <;> rfl

/-- A declaration that is not accepted leaves the file system alone, and so does a setting that
names no directory. -/
theorem system_expand_of_none {item : Item} {setting : Option String}
    (h : unit? item = none ∨ ExpandDir.ofSetting setting = none) (fs : σ) :
    (expand item setting fs).2.1 = fs := by
  rw [expand_eq]
  unfold unit? at h
  rcases hu : unitOf item with ⟨- | - | u, events⟩
  · rfl
  · rfl
  · rw [hu] at h
    rcases h with h | h
    · cases h
    · simp only [h]

/-- A unit that is accepted is added to the directory that the setting names. -/
theorem system_expand_of_some {item : Item} {setting : Option String} {u : NamedUnit}
    {d : ExpandDir}
    (hu : unit? item = some u) (hd : ExpandDir.ofSetting setting = some d) (fs : σ) :
    (expand item setting fs).2.1 = (d.add fs u.name u.code).1 := by
  obtain ⟨events, hi⟩ := unitOf_of_unit? hu
  rw [expand_eq, hi]
  simp only [hd]

/-- An expansion does the same under the eyes of a watcher. -/
theorem system_expand_watched (item : Item) (setting : Option String) (w : Watched σ) :
    (expand item setting w).2.1.system = (expand item setting w.system).2.1 := by
  cases hu : unit? item with
  | none => rw [system_expand_of_none (.inl hu), system_expand_of_none (.inl hu)]
  | some u =>
    cases hd : ExpandDir.ofSetting setting with
    | none => rw [system_expand_of_none (.inr hd), system_expand_of_none (.inr hd)]
    | some d =>
      rw [system_expand_of_some hu hd, system_expand_of_some hu hd, ExpandDir.add_watched]

theorem ofSetting_eq_some {root : String} (h : root ≠ "") :
    ExpandDir.ofSetting (some root) = some ⟨root⟩ := by
  unfold ExpandDir.ofSetting
  split <;> simp_all

/-- A setting that is missing or empty disables writing. -/
theorem ofSetting_eq_none {setting : Option String} (h : setting = none ∨ setting = some "") :
    ExpandDir.ofSetting setting = none := by
  rcases h with rfl | rfl <;> rfl

/-- **An expansion answers what is generated, and writes nothing else.**  Whatever the setting is
and whatever the file system does, an expansion answers with the refusal of a declaration that is
refused, with nothing for one that is skipped, and else with the finished code of a fresh list of
units, which is the unit of the declaration in a scope of its own.  Nothing is asked of the file
system unless the declaration is accepted and the setting names a directory.  Then it is asked to
make this directory and, if it could, to write the text of the same unit to the file of the unit's
name. -/
theorem expand_answers (item : Item) (setting : Option String) (fs : σ) :
    let watched := expand item setting (Watched.fresh fs)
    (watched.1 = (expand item setting fs).1 ∧
      watched.2.1.system = (expand item setting fs).2.1) ∧
    (expand item setting fs).1 =
      (generate item .empty).1.map (fun _ => UnitList.finish (generate item .empty).2.1) ∧
    (∀ r, (generate item .empty).1 = .error r →
      (expand item setting fs).1 = .error r ∧ watched.2.1 = .fresh fs) ∧
    ((generate item .empty).1 = .ok none →
      (expand item setting fs).1 = .ok [] ∧ watched.2.1 = .fresh fs) ∧
    ∀ name, (generate item .empty).1 = .ok (some name) → ∃ d code, Accepts item d code ∧
      name = unitName d.nameSpace d.name ∧
      (expand item setting fs).1 = .ok
        ([.ident "const", .ident "_", .punct ':' false, .opening .paren, .closing .paren,
          .punct '=' false, .opening .brace] ++ code ++ [.closing .brace, .punct ';' false]) ∧
      (setting = none ∨ setting = some "" → watched.2.1 = .fresh fs) ∧
      ∀ root, setting = some root → root ≠ "" →
        watched.2.1.requests = .makeDirs root ::
          if (FileSystem.makeDirs root fs).1 = .ok () then
            [.write (Path.join root (name ++ ".rs")) (canonicalText code)]
          else [] := by
  refine ⟨⟨?_, system_expand_watched item setting _⟩, answer_expand item setting fs, fun r h => ?_,
    fun h => ?_, fun name h => ?_⟩
  · rw [answer_expand, answer_expand]
  · have hu : unit? item = none := unit?_eq_none fun name => by rw [h]; exact nofun
    refine ⟨?_, system_expand_of_none (.inl hu) _⟩
    rw [answer_expand, h]
    rfl
  · have hu : unit? item = none := unit?_eq_none fun name => by rw [h]; exact nofun
    refine ⟨?_, system_expand_of_none (.inl hu) _⟩
    rw [answer_expand, h, generate_units, hu]
    rfl
  · obtain ⟨d, code, hd, rfl⟩ := generate_answer_iff.mp h
    have hu : unit? item = some ⟨d.unitName, code⟩ := unit?_eq_some_iff.mpr ⟨d, hd, rfl⟩
    refine ⟨d, code, hd, rfl, ?_, fun hs => ?_, fun root hs hroot => ?_⟩
    · rw [answer_expand, h, generate_units, hu]
      simp only [Except.map, finish_insert, enclosed_eq]
    · exact system_expand_of_none (.inr (ofSetting_eq_none hs)) _
    · subst hs
      rw [system_expand_of_some hu (ofSetting_eq_some hroot), ExpandDir.add_watched]
      rfl

end Derive

end KeyedRecord
