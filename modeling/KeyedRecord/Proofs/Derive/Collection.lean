import KeyedRecord.Derive.Pipeline
import KeyedRecord.Proofs.Table
import KeyedRecord.Proofs.Derive.MemberTable
import KeyedRecord.Proofs.Derive.UnitNames
import Mathlib.Data.List.Perm.Basic

/-!
# Collecting units

Declarations that are generated one after the other into one list of units.  A declaration leaves
the list as it was, or files one unit under the name of its namespace and type; so the list is the
table of the units of the accepted declarations, and what it holds follows from what is known of
tables: `generateAll_eq`.  No two pairs of a namespace and a type share the name of a unit, so what
is filed under a name is known from what was accepted.

Principal result: `generateAll_collects`.
-/

set_option autoImplicit false

namespace KeyedRecord.Derive

open Source

/-! ## One declaration -/

/-- The declaration is accepted: the code is rendered from its descriptor. -/
def Accepts (item : Item) (d : TypeDescriptor) (code : UnitCode) : Prop :=
  ∃ decl, TypeDecl.ofItem item = .ok decl ∧ decl.descriptor = some d ∧
    render d decl.crate = .ok code

/-- The unit of a declaration that is accepted. -/
def unit? (item : Item) : Option NamedUnit :=
  match (unitOf item).1 with
  | .ok u => u
  | .error _ => none

theorem unit?_eq_some_iff {item : Item} {u : NamedUnit} :
    unit? item = some u ↔ ∃ d, Accepts item d u.code ∧ u.name = d.unitName := by
  unfold unit? unitOf Accepts TypeDecl.descriptor
  cases hdecl : TypeDecl.ofItem item with
  | error r => simp
  | ok decl =>
    rcases hs : decl.scan with ⟨- | d, events⟩
    · simp [hs]
    · cases hr : render d decl.crate with
      | error r => simp [hs, hr]
      | ok code =>
        simp only [hs, hr]
        constructor
        · intro h
          cases h
          exact ⟨d, ⟨decl, rfl, by rw [hs], hr⟩, rfl⟩
        · rintro ⟨d', ⟨decl', hd, hs', hr'⟩, hname⟩
          cases hd
          rw [hs] at hs'
          cases hs'
          rw [hr] at hr'
          cases hr'
          rw [← hname]

/-- A descriptor has the name of its declaration. -/
theorem Accepts.name_eq {item : Item} {d : TypeDescriptor} {code : UnitCode}
    (h : Accepts item d code) : d.name = item.name := by
  obtain ⟨decl, hdecl, hd, -⟩ := h
  have hname := (TypeDecl.head_of_ofItem hdecl).1
  unfold TypeDecl.descriptor TypeDecl.scan at hd
  split at hd <;> cases hd
  exact hname

/-- What is answered is the name of the unit. -/
theorem generate_answer (item : Item) (s : UnitList) :
    (generate item s).1 = (unitOf item).1.map (Option.map NamedUnit.name) := by
  unfold generate
  rcases unitOf item with ⟨- | - | u, events⟩ <;> rfl

/-- **A declaration that is not accepted leaves no trace**, and any other files its unit. -/
theorem generate_units (item : Item) (s : UnitList) :
    (generate item s).2.1 = match unit? item with
      | some u => s.insert u.name u.code
      | none => s := by
  unfold generate unit?
  rcases unitOf item with ⟨- | - | u, events⟩ <;> rfl

theorem generate_answer_iff {item : Item} {s : UnitList} {name : String} :
    (generate item s).1 = .ok (some name) ↔ ∃ d code, Accepts item d code ∧ name = d.unitName := by
  have hname : (generate item s).1 = .ok (some name) ↔
      ∃ u, unit? item = some u ∧ u.name = name := by
    rw [generate_answer]
    unfold unit?
    rcases unitOf item with ⟨- | - | u, events⟩ <;> simp [Except.map]
  rw [hname]
  constructor
  · rintro ⟨u, hu, hn⟩
    obtain ⟨d, hd, hn'⟩ := unit?_eq_some_iff.mp hu
    exact ⟨d, u.code, hd, hn.symm.trans hn'⟩
  · rintro ⟨d, code, hd, rfl⟩
    exact ⟨⟨d.unitName, code⟩, unit?_eq_some_iff.mpr ⟨d, hd, rfl⟩, rfl⟩

/-! ## Runs -/

/-- The units when declarations have been generated one after the other. -/
def generateAll (items : List Item) (s : UnitList) : UnitList :=
  items.foldl (fun s item => (generate item s).2.1) s

/-- What the declarations of a run are answered. -/
def answers : List Item → UnitList → List (Except Refusal (Option String))
  | [], _ => []
  | item :: items, s => (generate item s).1 :: answers items (generate item s).2.1

/-- The names among some answers. -/
def returnedNames (as : List (Except Refusal (Option String))) : List String :=
  as.filterMap fun
    | .ok name => name
    | .error _ => none

/-- The entry of a declaration that is accepted. -/
def filed? (item : Item) : Option (String × UnitCode) :=
  (unit? item).map fun u => (u.name, u.code)

theorem filed?_eq_some_iff {item : Item} {name : String} {code : UnitCode} :
    filed? item = some (name, code) ↔ ∃ d, Accepts item d code ∧ name = d.unitName := by
  unfold filed?
  constructor
  · intro h
    obtain ⟨u, hu, he⟩ := Option.map_eq_some_iff.mp h
    cases he
    exact unit?_eq_some_iff.mp hu
  · rintro ⟨d, hd, rfl⟩
    have hu : unit? item = some ⟨d.unitName, code⟩ := unit?_eq_some_iff.mpr ⟨d, hd, rfl⟩
    rw [hu]
    rfl

/-- **A run fills the table of units from the accepted declarations.** -/
theorem generateAll_eq (items : List Item) (s : UnitList) :
    generateAll items s = s.insertAll (items.filterMap filed?) := by
  induction items generalizing s with
  | nil => rfl
  | cons item items ih =>
    have hstep := generate_units item s
    rw [generateAll, List.foldl_cons, hstep]
    cases hu : unit? item with
    | none =>
      have hf : filed? item = none := by rw [filed?, hu]; rfl
      rw [List.filterMap_cons_none hf]
      exact ih s
    | some u =>
      have hf : filed? item = some (u.name, u.code) := by rw [filed?, hu]; rfl
      rw [List.filterMap_cons_some hf]
      exact ih _

theorem returnedNames_answers (items : List Item) (s : UnitList) :
    returnedNames (answers items s) = (items.filterMap filed?).map Prod.fst := by
  induction items generalizing s with
  | nil => rfl
  | cons item items ih =>
    have ha := generate_answer item s
    have hf : filed? item = (unit? item).map fun u => (u.name, u.code) := rfl
    unfold unit? at hf
    rw [answers, ha]
    cases hu : (unitOf item).1 with
    | error r =>
      rw [hu] at hf
      rw [List.filterMap_cons_none hf, ← ih]
      rfl
    | ok o =>
      rw [hu] at hf
      cases o with
      | none =>
        rw [List.filterMap_cons_none hf, ← ih]
        rfl
      | some u =>
        rw [List.filterMap_cons_some hf, List.map_cons, ← ih]
        rfl

/-! ## What a run collects -/

/-- The code is that of the last declaration of a run that is accepted with the namespace and the
name. -/
def LastAccepted (items : List Item) (nameSpace name : String) (code : UnitCode) : Prop :=
  ∃ before item after d, items = before ++ item :: after ∧ Accepts item d code ∧
    d.nameSpace = nameSpace ∧ d.name = name ∧
    ∀ later ∈ after, ∀ d' code', Accepts later d' code' →
      ¬ (d'.nameSpace = nameSpace ∧ d'.name = name)

/-- No two accepted declarations of a run share namespace and name. -/
def DistinctlyNamed (items : List Item) : Prop :=
  items.Pairwise fun item item' => ∀ d code d' code', Accepts item d code → Accepts item' d' code' →
    ¬ (d.nameSpace = d'.nameSpace ∧ d.name = d'.name)

section

variable {items : List Item} (hn : ∀ item ∈ items, isTypeName item.name = true)

include hn in
/-- The name of the type of an accepted declaration can be told from the name of its unit. -/
theorem unitName_eq_iff {item : Item} (hi : item ∈ items) {d : TypeDescriptor} {code : UnitCode}
    (hd : Accepts item d code) {nameSpace name : String} (h : isTypeName name = true) :
    unitName nameSpace name = d.unitName ↔ d.nameSpace = nameSpace ∧ d.name = name := by
  have hdn : isTypeName d.name = true := by
    rw [hd.name_eq]
    exact hn item hi
  constructor
  · intro he
    obtain ⟨hs, hm⟩ := unitName_inj h hdn he
    exact ⟨hs.symm, hm.symm⟩
  · rintro ⟨rfl, rfl⟩
    rfl

include hn in
theorem get?_generateAll_iff {nameSpace name : String} (h : isTypeName name = true)
    (code : UnitCode) :
    (generateAll items .empty).get? (unitName nameSpace name) = some code ↔
      LastAccepted items nameSpace name code := by
  rw [generateAll_eq, ← Table.ofList_eq, Table.get?_ofList_eq_some_iff]
  constructor
  · rintro ⟨before, after, hsplit, hlast⟩
    obtain ⟨l₁, l₂, rfl, -, hl₂⟩ := List.filterMap_eq_append_iff.mp hsplit
    obtain ⟨l₃, item, l₄, rfl, -, hitem, hafter⟩ := List.filterMap_eq_cons_iff.mp hl₂
    obtain ⟨d, hd, he⟩ := filed?_eq_some_iff.mp hitem
    have hpair := (unitName_eq_iff hn (by simp) hd h).mp he
    refine ⟨l₁ ++ l₃, item, l₄, d, by simp, hd, hpair.1, hpair.2, ?_⟩
    intro later hlater d' code' hd' hp
    refine hlast (List.mem_map.mpr ⟨(unitName nameSpace name, code'), ?_, rfl⟩)
    rw [← hafter]
    refine List.mem_filterMap.mpr ⟨later, hlater, filed?_eq_some_iff.mpr ⟨d', hd', ?_⟩⟩
    exact (unitName_eq_iff hn (by simp [hlater]) hd' h).mpr hp
  · rintro ⟨before, item, after, d, rfl, hd, rfl, rfl, hlast⟩
    have hitem : filed? item = some (d.unitName, code) := filed?_eq_some_iff.mpr ⟨d, hd, rfl⟩
    refine ⟨before.filterMap filed?, after.filterMap filed?, ?_, fun hmem => ?_⟩
    · rw [List.filterMap_append, List.filterMap_cons_some hitem]
      rfl
    · obtain ⟨⟨n, code'⟩, hmem, rfl⟩ := List.mem_map.mp hmem
      obtain ⟨later, hlater, hfiled⟩ := List.mem_filterMap.mp hmem
      obtain ⟨d', hd', he⟩ := filed?_eq_some_iff.mp hfiled
      exact hlast later hlater d' code' hd' ((unitName_eq_iff hn (by simp [hlater]) hd' h).mp he)

include hn in
/-- Where no two accepted declarations share namespace and name, no two units share a name. -/
theorem nodup_filed (hd : DistinctlyNamed items) :
    ((items.filterMap filed?).map Prod.fst).Nodup := by
  rw [List.Nodup, List.pairwise_map, List.pairwise_filterMap]
  refine hd.imp_of_mem fun {item item'} hi hi' hne e he e' he' hname => ?_
  obtain ⟨d, hd, hnd⟩ := filed?_eq_some_iff.mp he
  obtain ⟨d', hd', hnd'⟩ := filed?_eq_some_iff.mp he'
  have hdn : isTypeName d'.name = true := by
    rw [hd'.name_eq]
    exact hn item' hi'
  have hsame : d'.unitName = d.unitName := by rw [← hnd', ← hname, hnd]
  exact hne d e.2 d' e'.2 hd hd' ((unitName_eq_iff hn hi hd hdn).mp hsame)

end

/-- The finished code is that of the units in order. -/
theorem finish_eq (s : UnitList) :
    ∃ units, List.Forall₂ (fun name unit => s.get? name = some unit) s.keys units ∧
      UnitList.finish s = units.flatMap UnitList.enclosed := by
  refine ⟨s.entries.map Prod.snd, ?_, ?_⟩
  · have hkeys : s.keys = s.entries.map Prod.fst := rfl
    rw [hkeys, List.forall₂_map_left_iff, List.forall₂_map_right_iff, List.forall₂_same]
    exact fun e he => Table.get?_of_mem he
  · rw [List.flatMap_map]
    rfl

/-- **What a run collects.**  A declaration that is refused or skipped leaves the list of units as
it was; any other is answered with the name of its unit.  In the end the names are those that were
answered, each where it first came; under the name of a namespace and a type stands the code of the
last declaration that was accepted with them, and of no other; and the finished code has every unit,
in this order, in a scope of its own.  Where no two accepted declarations share namespace and name,
the order of the declarations does not matter for what stands under a name. -/
theorem generateAll_collects (items : List Item)
    (hn : ∀ item ∈ items, isTypeName item.name = true) :
    (∀ before item after, items = before ++ item :: after →
      let s := generateAll before .empty
      (∀ name, (generate item s).1 = .ok (some name) ↔
        ∃ d code, Accepts item d code ∧ name = unitName d.nameSpace d.name) ∧
      ((∀ name, (generate item s).1 ≠ .ok (some name)) → (generate item s).2.1 = s)) ∧
    (generateAll items .empty).keys = (returnedNames (answers items .empty)).eraseDups ∧
    (generateAll items .empty).keys.Nodup ∧
    (∀ nameSpace name, isTypeName name = true → ∀ code,
      (generateAll items .empty).get? (unitName nameSpace name) = some code ↔
        LastAccepted items nameSpace name code) ∧
    (∃ units, List.Forall₂ (fun name unit => (generateAll items .empty).get? name = some unit)
        (generateAll items .empty).keys units ∧
      UnitList.finish (generateAll items .empty) = units.flatMap fun unit =>
        [.ident "const", .ident "_", .punct ':' false, .opening .paren, .closing .paren,
          .punct '=' false, .opening .brace] ++ unit ++ [.closing .brace, .punct ';' false]) ∧
    (DistinctlyNamed items → ∀ items', items.Perm items' → ∀ name,
      (generateAll items' .empty).get? name = (generateAll items .empty).get? name) := by
  refine ⟨fun before item after _ => ⟨fun name => generate_answer_iff, fun hnot => ?_⟩, ?_,
    (generateAll items .empty).nodup, fun nameSpace name h code => get?_generateAll_iff hn h code,
    ?_, fun hd items' hp name => ?_⟩
  · rw [generate_units]
    cases hu : unit? item with
    | none => rfl
    | some u =>
      obtain ⟨d, hd, hname⟩ := unit?_eq_some_iff.mp hu
      exact absurd (generate_answer_iff.mpr ⟨d, u.code, hd, hname⟩) (hnot u.name)
  · rw [generateAll_eq, ← Table.ofList_eq, Table.keys_ofList_eq, returnedNames_answers]
  · obtain ⟨units, hunits, hfinish⟩ := finish_eq (generateAll items .empty)
    refine ⟨units, hunits, hfinish.trans (List.flatMap_congr fun unit _ => ?_)⟩
    simp [UnitList.enclosed, Code.w, Code.p, Code.paren, Code.brace, operatorTokens]
  · rw [generateAll_eq, generateAll_eq, ← Table.ofList_eq, ← Table.ofList_eq]
    exact (Table.get?_ofList_perm (hp.filterMap filed?) (nodup_filed hn hd) name).symm

/-- Where the tokens of the declarations below stand. -/
def testSpan : Span := ⟨.start, .start⟩

/-- The attribute that names a namespace. -/
def testNameSpace (literal : String) : Attribute where
  path := ⟨false, [⟨.ident "objdict", testSpan⟩]⟩
  body := .list .paren
    [⟨.ident "namespace", testSpan⟩, ⟨.punct '=' false, testSpan⟩, ⟨.literal literal, testSpan⟩]
    ⟨.closing .paren, testSpan⟩

/-- Five declarations: the third is refused, the fourth skipped, and the last takes the place of the
first. -/
def testRun : List Item :=
  [⟨[testNameSpace "\"a.b\""], .unrestricted, "T", .empty, .struct .unit⟩,
    ⟨[testNameSpace "\"a\""], .inherited, "T", .empty, .struct .unit⟩,
    ⟨[testNameSpace "a.b"], .unrestricted, "U", .empty, .struct .unit⟩,
    ⟨[testNameSpace "\"a.b\""], .unrestricted, "T", .empty, .enumeration⟩,
    ⟨[testNameSpace "\"a.b\""], .unrestricted, "T", .empty,
      .struct (.named [⟨[], .unrestricted, some "x", .word "i32", none⟩])⟩]

theorem generateAll_collects_testRun :
    (∀ item ∈ testRun, isTypeName item.name = true) ∧
    (generateAll testRun .empty).keys = ["objdict.a.b.T.g", "objdict.a.T.g"] ∧
    ∃ code, (generateAll testRun .empty).get? (unitName "a.b" "T") = some code ∧
      LastAccepted testRun "a.b" "T" code := by
  have hn : ∀ item ∈ testRun, isTypeName item.name = true := by decide +kernel
  obtain ⟨-, hkeys, -, hget, -, -⟩ := generateAll_collects testRun hn
  have hsome : ((generateAll testRun .empty).get? (unitName "a.b" "T")).isSome = true := by
    decide +kernel
  obtain ⟨code, hcode⟩ := Option.isSome_iff_exists.mp hsome
  refine ⟨hn, ?_, code, hcode, (hget "a.b" "T" (by decide +kernel) code).mp hcode⟩
  rw [hkeys]
  decide +kernel

end KeyedRecord.Derive
