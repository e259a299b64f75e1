import KeyedRecord.Derive.ExpandDir
import KeyedRecord.Proofs.Derive.Collection

/-!
# The files of units

A unit is written to a file whose path joins the directory and the name of the unit.  Two paths are
the same if their components agree, so the path of an entry without slashes is one component behind
those of the directory: `components_join`.

The name of a unit begins and ends with text of its own, which keeps it from being a dot component;
the namespace in the middle may be any text.  Where it has a slash the path has components of the
namespace, and the file is not one of the directory.

Principal results: `components_pathFor`, and `pathFor_unitName` with `slashes_share_a_file`.
-/

set_option autoImplicit false

namespace KeyedRecord.Files.Path

open Text

/-! ## Stretches between slashes -/

theorem stretches_append_cons {separates : Char → Bool} {c : Char} (hc : separates c = true)
    (as bs : List Char) :
    stretches separates (as ++ c :: bs) = stretches separates as ++ stretches separates bs := by
  induction as with
  | nil => simp [stretches, hc]
  | cons a as ih =>
    rw [List.cons_append, stretches, stretches, ih]
    cases separates a with
    | true => rfl
    | false =>
      cases hs : stretches separates as with
      | nil => exact absurd hs (stretches_ne_nil separates as)
      | cons => rfl

theorem stretches_of_not {separates : Char → Bool} {cs : List Char}
    (h : ∀ c ∈ cs, separates c = false) : stretches separates cs = [cs] := by
  induction cs with
  | nil => rfl
  | cons c cs ih =>
    obtain ⟨hc, hcs⟩ := List.forall_mem_cons.mp h
    simp [stretches, hc, ih hcs]

theorem pieces_append (dir entry : String) :
    pieces (dir ++ "/" ++ entry) = pieces dir ++ pieces entry := by
  have hl : (dir ++ "/" ++ entry).toList = dir.toList ++ '/' :: entry.toList := by
    simp [String.toList_append]
  rw [pieces, hl, stretches_append_cons (by decide), List.map_append]
  rfl

/-- A text without slashes is one stretch. -/
theorem pieces_of_not_mem {path : String} (h : '/' ∉ path.toList) : pieces path = [path] := by
  have hs : ∀ c ∈ path.toList, (c == '/') = false := by
    intro c hc
    exact beq_false_of_ne fun hslash => h (hslash ▸ hc)
  rw [pieces, stretches_of_not hs, List.map_singleton, String.ofList_toList]

/-! ## Joined paths -/

/-- The components of a path that does not stand at the start. -/
def laterComponents (path : String) : List Component := (pieces path).filterMap laterComponent

theorem isAbsolute_iff {path : String} : isAbsolute path = true ↔ path.toList.head? = some '/' := by
  unfold isAbsolute
  cases path.toList with
  | nil => simp
  | cons c cs =>
    by_cases hc : c = '/'
    · simp [hc]
    · simp [hc]

theorem components_append {dir : String} (h : dir ≠ "") (entry : String) :
    components (dir ++ "/" ++ entry) = components dir ++ laterComponents entry := by
  have hd : dir.toList ≠ [] := fun hd => h (String.toList_inj.mp hd)
  have habs : isAbsolute (dir ++ "/" ++ entry) = isAbsolute dir := by
    rw [Bool.eq_iff_iff, isAbsolute_iff, isAbsolute_iff, String.toList_append, String.toList_append,
      List.append_assoc, List.head?_append_of_ne_nil _ hd]
  cases hp : pieces dir with
  | nil => exact absurd (List.map_eq_nil_iff.mp hp) (stretches_ne_nil _ _)
  | cons first rest =>
    simp only [components, habs, pieces_append, hp, List.cons_append, List.filterMap_append]
    split
    · rfl
    · split
      · rfl
      · rw [List.append_assoc]
        rfl

theorem components_absolute (entry : String) :
    components ("" ++ "/" ++ entry) = .root :: laterComponents entry := by
  have habs : isAbsolute ("" ++ "/" ++ entry) = true :=
    isAbsolute_iff.mpr (by simp [String.toList_append])
  simp only [components, habs, pieces_append]
  rfl

/-- The components of a path that starts with neither a slash nor a dot. -/
theorem components_eq_later {entry : String} (habs : isAbsolute entry = false)
    (hdot : (pieces entry).head? ≠ some ".") : components entry = laterComponents entry := by
  unfold components laterComponents
  cases hp : pieces entry with
  | nil => rfl
  | cons first rest =>
    have hfirst : first ≠ "." := by
      rintro rfl
      exact hdot (by rw [hp]; rfl)
    simp only [habs, if_neg hfirst, List.filterMap_cons]
    cases laterComponent first <;> rfl

/-- The first stretch of a path begins as the path does. -/
theorem head?_of_pieces {path : String} {c : Char} (h : path.toList.head? = some c) (hc : c ≠ '/')
    {first : String} (hfirst : (pieces path).head? = some first) : first.toList.head? = some c := by
  obtain ⟨cs, hcs⟩ := List.head?_eq_some_iff.mp h
  have hslash : (c == '/') = false := beq_false_of_ne hc
  rw [pieces, hcs, stretches, hslash] at hfirst
  cases hs : stretches (· == '/') cs with
  | nil => exact absurd hs (stretches_ne_nil _ _)
  | cons a as =>
    rw [hs] at hfirst
    cases hfirst
    simp

/-- **The components of a joined path** are those of the directory and then those of the entry. -/
theorem components_join (dir : String) {entry : String} (habs : isAbsolute entry = false)
    (hdot : (pieces entry).head? ≠ some ".") :
    components (join dir entry) = components dir ++ laterComponents entry := by
  unfold join
  rw [habs, if_neg Bool.false_ne_true]
  by_cases hd : dir = ""
  · rw [if_pos hd, hd, components_eq_later habs hdot]
    rfl
  rw [if_neg hd]
  split
  · rename_i hlast
    -- the directory ends in a slash: what is before it may be nothing
    obtain ⟨front, hfront⟩ := List.getLast?_eq_some_iff.mp hlast
    have hdir : dir = String.ofList front ++ "/" ++ "" := by
      apply String.toList_inj.mp
      simp [hfront, String.toList_append]
    have hassoc : dir ++ entry = String.ofList front ++ "/" ++ entry := by
      rw [hdir, String.append_empty]
    by_cases hf : String.ofList front = ""
    · rw [hassoc, hdir, hf, components_absolute, components_absolute]
      rfl
    · rw [hassoc, hdir, components_append hf, components_append hf, List.append_assoc]
      rfl
  · exact components_append hd entry

/-! ## Components of entries -/

/-- A stretch is left out, or goes to the parent, only if it is nothing or dots. -/
theorem laterComponent_of_mem {piece : String} {c : Char} (hc : c ∈ piece.toList) (hdot : c ≠ '.') :
    laterComponent piece = some (.name piece) := by
  have hne : ∀ dots : String, c ∉ dots.toList → piece ≠ dots := by
    rintro dots hdots rfl
    exact hdots hc
  have hempty := hne "" (by simp)
  have hone := hne "." (by simpa using hdot)
  have htwo := hne ".." (by simpa using hdot)
  simp [laterComponent, hempty, hone, htwo]

theorem exists_stretch_of_mem (separates : Char → Bool) {c : Char} {cs : List Char} (h : c ∈ cs)
    (hc : separates c = false) : ∃ s ∈ stretches separates cs, c ∈ s := by
  induction cs with
  | nil => cases h
  | cons d cs ih =>
    cases hs : stretches separates cs with
    | nil => exact absurd hs (stretches_ne_nil separates cs)
    | cons first rest =>
      rw [hs] at ih
      rcases List.mem_cons.mp h with rfl | h
      · exact ⟨c :: first, by simp [stretches, hc, hs], List.mem_cons_self⟩
      · obtain ⟨s, hmem, hcs⟩ := ih h
        cases hd : separates d with
        | true => exact ⟨s, by simpa [stretches, hd, hs] using .inr (List.mem_cons.mp hmem), hcs⟩
        | false =>
          rcases List.mem_cons.mp hmem with rfl | hmem
          · exact ⟨d :: s, by simp [stretches, hd, hs], List.mem_cons_of_mem d hcs⟩
          · exact ⟨s, by simp [stretches, hd, hs, hmem], hcs⟩

/-- Something that is neither a slash nor a dot makes a component. -/
theorem laterComponents_ne_nil {path : String} {c : Char} (h : c ∈ path.toList) (hslash : c ≠ '/')
    (hdot : c ≠ '.') : laterComponents path ≠ [] := by
  have hsep : (c == '/') = false := beq_false_of_ne hslash
  obtain ⟨s, hs, hc⟩ := exists_stretch_of_mem (· == '/') h hsep
  have hpiece : String.ofList s ∈ pieces path := List.mem_map_of_mem hs
  have hname : laterComponent (String.ofList s) = some (.name (String.ofList s)) :=
    laterComponent_of_mem (by rwa [String.toList_ofList]) hdot
  exact List.ne_nil_of_mem (List.mem_filterMap.mpr ⟨_, hpiece, hname⟩)

theorem root_not_mem_laterComponents (path : String) : .root ∉ laterComponents path := by
  intro h
  obtain ⟨piece, -, hpiece⟩ := List.mem_filterMap.mp h
  unfold laterComponent at hpiece
  split at hpiece
  · cases hpiece
  · split at hpiece <;> cases hpiece

theorem parent?_append {cs later : List Component} (h : later ≠ []) (hroot : .root ∉ later) :
    parent? (cs ++ later) = some (cs ++ later.dropLast) := by
  have hlast : (cs ++ later).getLast? = some (later.getLast h) := by
    rw [List.getLast?_append_of_ne_nil _ h, List.getLast?_eq_some_getLast h]
  have hne : later.getLast h ≠ .root := fun he => hroot (he ▸ List.getLast_mem h)
  rw [parent?, hlast, List.dropLast_append_of_ne_nil h]
  cases hl : later.getLast h with
  | root => exact absurd hl hne
  | here | parent | name => rfl

end KeyedRecord.Files.Path

namespace KeyedRecord.Derive

open Source Files Files.Path

/-! ## The names of files -/

/-- The name of the file of a unit. -/
def fileName (nameSpace name : String) : String := unitName nameSpace name ++ ".rs"

theorem toList_fileName (nameSpace name : String) :
    (fileName nameSpace name).toList =
      "objdict.".toList ++ nameSpace.toList ++ ('.' :: name.toList ++ ".g.rs".toList) := by
  simp [fileName, unitName, String.toList_append]

theorem slash_mem_fileName {nameSpace name : String} (h : isTypeName name = true) :
    '/' ∈ (fileName nameSpace name).toList ↔ '/' ∈ nameSpace.toList := by
  have hname : '/' ∉ name.toList := not_mem_of_isTypeName h (by decide) (by decide)
  rw [toList_fileName]
  simp [hname]

/-- A file's name is behind the components of the directory, whatever the directory is. -/
theorem components_pathFor (d : ExpandDir) (nameSpace name : String) :
    components (d.pathFor (unitName nameSpace name)) =
      components d.root ++ laterComponents (fileName nameSpace name) := by
  have hhead : (fileName nameSpace name).toList.head? = some 'o' := by
    rw [toList_fileName]
    rfl
  have habs : isAbsolute (fileName nameSpace name) = false := by
    rw [Bool.eq_false_iff, ne_eq, isAbsolute_iff, hhead]
    decide
  refine components_join d.root habs fun hdot => ?_
  have hfirst : ".".toList.head? = some 'o' := head?_of_pieces hhead (by decide) hdot
  cases hfirst

/-- A namespace without slashes leaves one component. -/
theorem laterComponents_fileName {nameSpace name : String} (h : isTypeName name = true)
    (hslash : '/' ∉ nameSpace.toList) :
    laterComponents (fileName nameSpace name) = [.name (fileName nameSpace name)] := by
  have hpieces := pieces_of_not_mem (mt (slash_mem_fileName h).mp hslash)
  have ho : 'o' ∈ (fileName nameSpace name).toList := by simp [toList_fileName]
  have hname := laterComponent_of_mem ho (by decide)
  rw [laterComponents, hpieces, List.filterMap_cons_some hname, List.filterMap_nil]

/-- A slash in the namespace parts the text before it from the text behind it, and neither is empty.
-/
theorem two_le_length_laterComponents {nameSpace : String} (hslash : '/' ∈ nameSpace.toList)
    (name : String) :
    2 ≤ (laterComponents (fileName nameSpace name)).length := by
  obtain ⟨front, back, hns⟩ := List.append_of_mem hslash
  let before := "objdict." ++ String.ofList front
  let behind := String.ofList back ++ "." ++ name ++ ".g.rs"
  have hsplit : fileName nameSpace name = before ++ "/" ++ behind := by
    apply String.toList_inj.mp
    simp [before, behind, toList_fileName, hns, String.toList_append]
  have ho : 'o' ∈ before.toList := by simp [before, String.toList_append]
  have hg : 'g' ∈ behind.toList := by simp [behind, String.toList_append]
  have hbefore := List.length_pos_iff.mpr (laterComponents_ne_nil ho (by decide) (by decide))
  have hbehind := List.length_pos_iff.mpr (laterComponents_ne_nil hg (by decide) (by decide))
  rw [hsplit, laterComponents, pieces_append, List.filterMap_append, List.length_append]
  exact Nat.add_le_add hbefore hbehind

/-- **The file of a type is one of the directory exactly if the namespace has no slash**, and then
no other namespace and type share it. -/
theorem pathFor_unitName (d : ExpandDir) {nameSpace name : String} (h : isTypeName name = true) :
    (parent? (components (d.pathFor (unitName nameSpace name))) = some (components d.root) ↔
      '/' ∉ nameSpace.toList) ∧
    ('/' ∉ nameSpace.toList → ∀ nameSpace' name' : String, isTypeName name' = true →
      components (d.pathFor (unitName nameSpace' name')) =
        components (d.pathFor (unitName nameSpace name)) →
      nameSpace' = nameSpace ∧ name' = name) := by
  constructor
  · rw [components_pathFor]
    by_cases hslash : '/' ∈ nameSpace.toList
    · have htwo := two_le_length_laterComponents hslash name
      have hne : laterComponents (fileName nameSpace name) ≠ [] := by
        rintro hnil
        simp [hnil] at htwo
      rw [parent?_append hne (root_not_mem_laterComponents _)]
      have hlong : (laterComponents (fileName nameSpace name)).dropLast ≠ [] := by
        rw [← List.length_pos_iff, List.length_dropLast]
        omega
      simp [hslash, hlong]
    · rw [laterComponents_fileName h hslash, parent?_append (by simp) (by simp)]
      simp [hslash]
  · intro hslash nameSpace' name' h' hpaths
    rw [components_pathFor, components_pathFor, laterComponents_fileName h hslash,
      List.append_cancel_left_eq] at hpaths
    have hslash' : '/' ∉ nameSpace'.toList := by
      intro hmem
      have htwo := two_le_length_laterComponents hmem name'
      simp [hpaths] at htwo
    rw [laterComponents_fileName h' hslash'] at hpaths
    have hfile : fileName nameSpace' name' = fileName nameSpace name := by simpa using hpaths
    have hunit : unitName nameSpace' name' = unitName nameSpace name := by
      simpa [fileName] using hfile
    exact unitName_inj h' h hunit

theorem pathFor_unitName_accounts :
    isTypeName "Account" = true ∧
    parent? (components (ExpandDir.pathFor ⟨"out/"⟩ (unitName "bank.v1" "Account"))) =
      some (components "out") ∧
    components (ExpandDir.pathFor ⟨"out/"⟩ (unitName "bank" "Account")) ≠
      components (ExpandDir.pathFor ⟨"out/"⟩ (unitName "bank.v1" "Account")) := by
  have h : isTypeName "Account" = true := by decide
  obtain ⟨hparent, hunique⟩ := @pathFor_unitName ⟨"out/"⟩ "bank.v1" "Account" h
  have hslash : '/' ∉ "bank.v1".toList := by decide
  refine ⟨h, hparent.mpr hslash, fun hpaths => ?_⟩
  obtain ⟨hns, -⟩ := hunique hslash "bank" "Account" h hpaths
  exact absurd hns (by decide)

/-- The name of the unit of a declaration, if it is accepted. -/
def unitNameOf (text : String) : Option String :=
  (Item.ofText text).toOption.bind fun item => (unit? item).map (·.name)

/-- Two declarations that are accepted share a file, which is in no case one of the directory; the
file of a third one stands outside the directory. -/
theorem slashes_share_a_file :
    unitNameOf "#[objdict(namespace = \"a/b\")] pub struct T;" = some (unitName "a/b" "T") ∧
    unitNameOf "#[objdict(namespace = \"a//b\")] pub struct T;" = some (unitName "a//b" "T") ∧
    unitNameOf "#[objdict(namespace = \"/../../b\")] pub struct T;" =
      some (unitName "/../../b" "T") ∧
    components (ExpandDir.pathFor ⟨"out"⟩ (unitName "a/b" "T")) =
      components (ExpandDir.pathFor ⟨"out"⟩ (unitName "a//b" "T")) ∧
    parent? (components (ExpandDir.pathFor ⟨"out"⟩ (unitName "a/b" "T"))) ≠
      some (components "out") ∧
    components (ExpandDir.pathFor ⟨"out"⟩ (unitName "/../../b" "T")) =
      [.name "out", .name "objdict.", .parent, .parent, .name "b.T.g.rs"] := by
  decide +kernel

end KeyedRecord.Derive
