import Mathlib.Data.Finmap
import KeyedRecord.Proofs.Derive.Expansion
import KeyedRecord.Proofs.Derive.UnitPaths

/-!
# Two destinations of units

Units are filed in a list, for the code that is answered, and in a directory, for people to read.
Both are maps from names: what comes under a name again takes the place of what was there, and
nothing else changes.  So a directory into which the same units are written mirrors the list:
`destinations_agree`.

A directory is one of a file system that is itself a map, from paths to texts.  Two names without
slashes have different files, since the path of each ends in a component of its own.
-/

set_option autoImplicit false

namespace KeyedRecord

/-! ## A file system that is a map -/

namespace Files

/-- A file system that is nothing but a map from paths to texts, where paths are the same if their
components agree.  Every request succeeds. -/
structure FileMap where
  texts : Finmap fun _ : List Component => String

namespace FileMap

/-- No files. -/
def empty : FileMap := ⟨∅⟩

/-- The text of the file at a path. -/
def read (fs : FileMap) (path : String) : Option String := fs.texts.lookup (Path.components path)

instance : FileSystem FileMap where
  makeDirs _ fs := (.ok (), fs)
  write path text fs := (.ok (), ⟨fs.texts.insert (Path.components path) text⟩)

end FileMap

end Files

namespace Derive

open Source Files Files.Path

/-! ## The file of a name -/

theorem components_pathFor_of_not_mem (d : ExpandDir) {name : String} (h : '/' ∉ name.toList) :
    components (d.pathFor name) = components d.root ++ [.name (name ++ ".rs")] := by
  have hslash : '/' ∉ (name ++ ".rs").toList := by
    rw [String.toList_append, List.mem_append]
    exact not_or.mpr ⟨h, by decide⟩
  have hr : 'r' ∈ (name ++ ".rs").toList := by
    rw [String.toList_append]
    exact List.mem_append_right _ (by decide)
  have hpieces := pieces_of_not_mem hslash
  have habs : isAbsolute (name ++ ".rs") = false := by
    rw [Bool.eq_false_iff, ne_eq, isAbsolute_iff]
    exact fun hhead => hslash (List.mem_of_head? hhead)
  have hdot : (pieces (name ++ ".rs")).head? ≠ some "." := by
    rw [hpieces, List.head?_cons]
    rintro he
    rw [Option.some.inj he] at hr
    exact absurd hr (by decide)
  have hlater : laterComponents (name ++ ".rs") = [.name (name ++ ".rs")] := by
    rw [laterComponents, hpieces, List.filterMap_cons_some (laterComponent_of_mem hr (by decide)),
      List.filterMap_nil]
  rw [ExpandDir.pathFor, components_join d.root habs hdot, hlater]

/-- Names without slashes that share a file are the same. -/
theorem components_pathFor_inj {d : ExpandDir} {name name' : String} (h : '/' ∉ name.toList)
    (h' : '/' ∉ name'.toList) (he : components (d.pathFor name) = components (d.pathFor name')) :
    name = name' := by
  rw [components_pathFor_of_not_mem d h, components_pathFor_of_not_mem d h',
    List.append_cancel_left_eq] at he
  simpa using he

/-! ## Both destinations, step by step -/

/-- The file system when units have been added to a directory, one after the other. -/
def ExpandDir.addAll {σ : Type} [FileSystem σ] (d : ExpandDir) (units : List (String × UnitCode))
    (fs : σ) : σ :=
  units.foldl (fun fs u => (d.add fs u.1 u.2).1) fs

/-- The files are exactly those of the names in the list, each with the text of the unit of its
name. -/
structure Mirrors (d : ExpandDir) (s : UnitList) (fs : FileMap) : Prop where
  noSlash : ∀ name ∈ s.keys, '/' ∉ name.toList
  lookup_iff : ∀ path text, fs.texts.lookup path = some text ↔ ∃ name unit,
    s.get? name = some unit ∧ components (d.pathFor name) = path ∧ canonicalText unit = text

theorem ExpandDir.add_fileMap (d : ExpandDir) (fs : FileMap) (name : String) (unit : UnitCode) :
    d.add fs name unit =
      (⟨fs.texts.insert (components (d.pathFor name)) (canonicalText unit)⟩,
        [.unitWritten (d.pathFor name)]) :=
  rfl

namespace Mirrors

variable {d : ExpandDir} {s : UnitList} {fs : FileMap}

theorem empty (d : ExpandDir) : Mirrors d .empty .empty where
  noSlash _ h := absurd h List.not_mem_nil
  lookup_iff path text := by
    simp [FileMap.empty]

/-- A unit that is added to both takes the place of the earlier one in both. -/
theorem add (h : Mirrors d s fs) {name : String} (hname : '/' ∉ name.toList) (unit : UnitCode) :
    Mirrors d (s.insert name unit) (d.add fs name unit).1 where
  noSlash other hother := by
    rw [Table.keys_insert] at hother
    split at hother
    · exact h.noSlash other hother
    · rcases List.mem_append.mp hother with hother | hother
      · exact h.noSlash other hother
      · rw [List.mem_singleton.mp hother]
        exact hname
  lookup_iff path text := by
    rw [ExpandDir.add_fileMap]
    by_cases hp : path = components (d.pathFor name)
    · subst hp
      rw [Finmap.lookup_insert, Option.some.injEq]
      constructor
      · rintro rfl
        exact ⟨name, unit, by rw [Table.get?_insert, if_pos rfl], rfl, rfl⟩
      · rintro ⟨other, unit', hget, hpath, rfl⟩
        rw [Table.get?_insert] at hget
        split at hget
        · cases hget
          rfl
        · -- another name of the list would have a file of its own
          rename_i hne
          have hother := h.noSlash other (Table.mem_keys_of_get? hget)
          exact absurd (components_pathFor_inj hother hname hpath) hne
    · rw [Finmap.lookup_insert_of_ne _ hp, h.lookup_iff]
      have hne : ∀ other, components (d.pathFor other) = path → other ≠ name := by
        rintro other hother rfl
        exact hp hother.symm
      constructor
      · rintro ⟨other, unit', hget, hpath, ht⟩
        exact ⟨other, unit', by rw [Table.get?_insert, if_neg (hne other hpath), hget], hpath, ht⟩
      · rintro ⟨other, unit', hget, hpath, ht⟩
        rw [Table.get?_insert, if_neg (hne other hpath)] at hget
        exact ⟨other, unit', hget, hpath, ht⟩

/-- A run of additions keeps a list and a directory alike. -/
theorem addAll (h : Mirrors d s fs) {units : List (String × UnitCode)}
    (hnames : ∀ u ∈ units, '/' ∉ u.1.toList) :
    Mirrors d (s.insertAll units) (d.addAll units fs) := by
  induction units generalizing s fs with
  | nil => exact h
  | cons u units ih =>
    obtain ⟨hu, hunits⟩ := List.forall_mem_cons.mp hnames
    exact ih (h.add hu u.2) hunits

theorem read_pathFor (h : Mirrors d s fs) {name : String} (hname : '/' ∉ name.toList) :
    fs.read (d.pathFor name) = (s.get? name).map canonicalText := by
  refine Option.ext fun text => ?_
  rw [FileMap.read, h.lookup_iff, Option.map_eq_some_iff]
  constructor
  · rintro ⟨other, unit, hget, hpath, ht⟩
    have hother := h.noSlash other (Table.mem_keys_of_get? hget)
    rw [components_pathFor_inj hother hname hpath] at hget
    exact ⟨unit, hget, ht⟩
  · rintro ⟨unit, hget, ht⟩
    exact ⟨name, unit, hget, rfl, ht⟩

/-- The files, name by name. -/
theorem keys_eq (h : Mirrors d s fs) :
    fs.texts.keys = (s.keys.map fun name => components (d.pathFor name)).toFinset := by
  refine Finset.ext fun path => ?_
  rw [Finmap.mem_keys, ← Finmap.lookup_isSome, Option.isSome_iff_exists, List.mem_toFinset,
    List.mem_map]
  constructor
  · rintro ⟨text, htext⟩
    obtain ⟨name, unit, hget, hpath, -⟩ := (h.lookup_iff path text).mp htext
    exact ⟨name, Table.mem_keys_of_get? hget, hpath⟩
  · rintro ⟨name, hname, hpath⟩
    obtain ⟨⟨_, unit⟩, hmem, rfl⟩ := List.mem_map.mp hname
    exact ⟨_, (h.lookup_iff path _).mpr ⟨_, unit, Table.get?_of_mem hmem, hpath, rfl⟩⟩

/-- No two names share a file. -/
theorem card_keys (h : Mirrors d s fs) : fs.texts.keys.card = s.size := by
  have hnodup : (s.keys.map fun name => components (d.pathFor name)).Nodup :=
    s.nodup.map_on fun name hn name' hn' he =>
      components_pathFor_inj (h.noSlash name hn) (h.noSlash name' hn') he
  rw [h.keys_eq, List.toFinset_card_of_nodup hnodup, List.length_map, Table.size_eq_length_keys]

end Mirrors

/-! ## Whole runs -/

/-- **The list and the directory are the same map.**  After any additions to an empty list its names
are the distinct names that came, in the order in which they first came; under each of them stands
the unit that came last; and the finished code has these units, in this order, each in a scope of
its own.  A directory to which the same units are added, under names without slashes, has exactly
one file for each of the names, and its text is that of the unit in the list. -/
theorem destinations_agree (units : List (String × UnitCode)) :
    let s : UnitList := Table.empty.insertAll units
    s.keys = (units.map Prod.fst).eraseDups ∧
    s.size = (units.map Prod.fst).toFinset.card ∧
    (∀ name unit, s.get? name = some unit ↔
      ∃ before after, units = before ++ (name, unit) :: after ∧ name ∉ after.map Prod.fst) ∧
    (∃ codes, List.Forall₂ (fun name code => s.get? name = some code) s.keys codes ∧
      s.finish = codes.flatMap fun code =>
        [.ident "const", .ident "_", .punct ':' false, .opening .paren, .closing .paren,
          .punct '=' false, .opening .brace] ++ code ++ [.closing .brace, .punct ';' false]) ∧
    ((∀ u ∈ units, '/' ∉ u.1.toList) → ∀ d : ExpandDir,
      let fs := d.addAll units FileMap.empty
      fs.texts.keys = (s.keys.map fun name => components (d.pathFor name)).toFinset ∧
      fs.texts.keys.card = s.size ∧
      ∀ name ∈ s.keys, fs.read (d.pathFor name) = (s.get? name).map canonicalText) := by
  intro s
  have hkeys : s.keys = (units.map Prod.fst).eraseDups := Table.keys_ofList_eq units
  refine ⟨hkeys, ?_, fun name unit => Table.get?_ofList_eq_some_iff, ?_, fun hnames d => ?_⟩
  · have hset : s.keys.toFinset = (units.map Prod.fst).toFinset := by
      refine Finset.ext fun name => ?_
      rw [List.mem_toFinset, List.mem_toFinset, hkeys, List.mem_eraseDups]
    have hcard : s.keys.toFinset.card = s.keys.length := List.toFinset_card_of_nodup s.nodup
    rw [← hset, hcard, Table.size_eq_length_keys]
  · obtain ⟨codes, hcodes, hfinish⟩ := finish_eq s
    exact ⟨codes, hcodes, hfinish.trans (List.flatMap_congr fun code _ => enclosed_eq code)⟩
  · have hmirrors : Mirrors d s (d.addAll units FileMap.empty) := (Mirrors.empty d).addAll hnames
    exact ⟨hmirrors.keys_eq, hmirrors.card_keys,
      fun name hname => hmirrors.read_pathFor (hmirrors.noSlash name hname)⟩

/-- Three additions, the last under the name of the first.  One name is nothing but dots. -/
def testUnits : List (String × UnitCode) :=
  [("..", [.ident "struct", .ident "First", .punct ';' false]),
    ("objdict.b.X.g", [.ident "struct", .ident "Other", .punct ';' false]),
    ("..", [.ident "struct", .ident "Second", .punct ';' false])]

theorem destinations_agree_testUnits :
    (∀ u ∈ testUnits, '/' ∉ u.1.toList) ∧
    (Table.empty.insertAll testUnits).keys = ["..", "objdict.b.X.g"] ∧
    (ExpandDir.addAll ⟨"out/"⟩ testUnits FileMap.empty).texts.keys.card = 2 ∧
    (ExpandDir.addAll ⟨"out/"⟩ testUnits FileMap.empty).read "out/...rs" =
      some "struct Second ;" := by
  have hnames : ∀ u ∈ testUnits, '/' ∉ u.1.toList := by decide
  obtain ⟨hkeys, hsize, -, -, hfiles⟩ := destinations_agree testUnits
  obtain ⟨-, hcard, hread⟩ := hfiles hnames ⟨"out/"⟩
  have hmem : ".." ∈ (Table.empty.insertAll testUnits).keys := by
    rw [hkeys]
    decide
  refine ⟨hnames, hkeys.trans (by decide), hcard.trans (hsize.trans (by decide)), ?_⟩
  exact (hread ".." hmem).trans (by decide)

end Derive

end KeyedRecord
