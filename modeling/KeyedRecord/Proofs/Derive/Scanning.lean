import KeyedRecord.Proofs.Derive.MemberTable

/-!
# What a scan reports

A scan goes through the table of a structure from its first member to its last.  Each member takes
part in the conversion, or is reported with the first reason that applies to it, and at the end the
scan reports how many members were selected of how many.  So nothing is left out without a word, and
the numbers add up: `scan_accounts`.
-/

set_option autoImplicit false

namespace KeyedRecord.Derive

open Source

/-! ## One member -/

/-- The member takes part in the conversion, with this descriptor. -/
structure TakesPart (m : MemberDecl) (d : MemberDescriptor) : Prop where
  notIgnored : m.ignored = false
  visible : m.visibility = .unrestricted ∨ m.included = true
  name : d.name = m.name
  type : d.declaredType = m.type.text
  access : (∃ place, m.kind = .field place ∧ d.access = .field place) ∨
    ∃ getter setter, m.kind = .property (some getter) (some setter) ∧
      d.access = .property getter setter

/-- The first reason against the member.  An earlier reason hides the later ones. -/
inductive LeftOutAs (m : MemberDecl) : String → Prop
  | ignored : m.ignored = true → LeftOutAs m "ignored"
  | hidden : m.ignored = false → m.visibility ≠ .unrestricted → m.included = false →
    LeftOutAs m "not public and not included"
  | notReadWrite {getter setter : Option String} : m.ignored = false →
    m.visibility = .unrestricted ∨ m.included = true → m.kind = .property getter setter →
    getter = none ∨ setter = none → LeftOutAs m "property is not read-write"

/-- What is heard of the event, at the lowest level: a reason, and the member that it is about. -/
structure Event.TellsOf (e : Event) (member reason : String) : Prop where
  level : e.level = .trace
  message : e.message = reason
  fields : e.fields = [("member", member)]

theorem Event.tellsOf_excluded (member : String) (reason : Exclusion) :
    (Event.excluded member reason).TellsOf member reason.message :=
  ⟨rfl, rfl, rfl⟩

namespace MemberDecl

variable {m : MemberDecl}

theorem isPublic_iff : m.isPublic = true ↔ m.visibility = .unrestricted := by
  unfold isPublic Visibility.isPublic
  cases m.visibility <;> simp

theorem exclusion_of_ignored (h : m.ignored = true) : m.exclusion = some .ignored := by
  simp [exclusion, policy, Policy.exclusion, h]

theorem exclusion_of_hidden (hi : m.ignored = false) (hv : m.visibility ≠ .unrestricted)
    (hn : m.included = false) : m.exclusion = some .hidden := by
  have hp : m.isPublic = false := Bool.eq_false_iff.mpr (mt isPublic_iff.mp hv)
  simp [exclusion, policy, Policy.exclusion, hi, hp, hn]

/-- Behind the first two reasons only the access counts. -/
theorem exclusion_of_visible (hi : m.ignored = false)
    (hv : m.visibility = .unrestricted ∨ m.included = true) :
    m.exclusion = if m.access?.isSome then none else some .notReadWrite := by
  have hp : (!m.isPublic && !m.included) = false := by
    rcases hv with hv | hv
    · simp [isPublic_iff.mpr hv]
    · simp [hv]
  simp only [exclusion, policy, Policy.exclusion, hi, hp]
  cases m.access? <;> rfl

/-- **Each member is selected or reported**, never both. -/
theorem select_or_report (m : MemberDecl) :
    (∃ d, m.select = some d ∧ m.report = none ∧ TakesPart m d) ∨
      ∃ e reason, m.select = none ∧ m.report = some e ∧ LeftOutAs m reason ∧
        e.TellsOf m.name reason := by
  have leftOut {reason : Exclusion} (he : m.exclusion = some reason)
      (hr : LeftOutAs m reason.message) :
      ∃ e reason, m.select = none ∧ m.report = some e ∧ LeftOutAs m reason ∧
        e.TellsOf m.name reason :=
    ⟨.excluded m.name reason, reason.message, by simp [select, he], by simp [report, he], hr,
      Event.tellsOf_excluded m.name reason⟩
  by_cases hi : m.ignored = true
  · exact .inr (leftOut (exclusion_of_ignored hi) (.ignored hi))
  rw [Bool.not_eq_true] at hi
  by_cases hv : m.visibility = .unrestricted ∨ m.included = true
  · have he := exclusion_of_visible hi hv
    have selected {access : Access} (ha : m.access? = some access)
        (hk : (∃ place, m.kind = .field place ∧ access = .field place) ∨
          ∃ getter setter, m.kind = .property (some getter) (some setter) ∧
            access = .property getter setter) :
        ∃ d, m.select = some d ∧ m.report = none ∧ TakesPart m d := by
      simp only [ha, Option.isSome_some, if_true] at he
      exact ⟨⟨m.name, m.type.text, access⟩, by simp [select, he, ha], by simp [report, he],
        hi, hv, rfl, rfl, hk⟩
    cases hk : m.kind with
    | field place => exact .inl (selected (by simp [access?, hk]) (.inl ⟨place, hk, rfl⟩))
    | property getter setter =>
      cases getter with
      | none =>
        rw [show m.access? = none by simp [access?, hk]] at he
        exact .inr (leftOut he (.notReadWrite hi hv hk (.inl rfl)))
      | some getter =>
        cases setter with
        | none =>
          rw [show m.access? = none by simp [access?, hk]] at he
          exact .inr (leftOut he (.notReadWrite hi hv hk (.inr rfl)))
        | some setter =>
          exact .inl (selected (by simp [access?, hk]) (.inr ⟨getter, setter, hk, rfl⟩))
  · obtain ⟨hv, hn⟩ := not_or.mp hv
    rw [Bool.not_eq_true] at hn
    exact .inr (leftOut (exclusion_of_hidden hi hv hn) (.hidden hi hv hn))

end MemberDecl

/-! ## Tables -/

/-- **The account of a table**: its members in order, each of which stands in the list of
descriptors or is told of in the list of events, where it belongs. -/
inductive Accounted : List MemberDecl → List MemberDescriptor → List Event → Prop
  | nil : Accounted [] [] []
  | selected {m : MemberDecl} {d : MemberDescriptor} {ms : List MemberDecl}
    {ds : List MemberDescriptor} {es : List Event} :
    TakesPart m d → Accounted ms ds es → Accounted (m :: ms) (d :: ds) es
  | leftOut {m : MemberDecl} {reason : String} {e : Event} {ms : List MemberDecl}
    {ds : List MemberDescriptor} {es : List Event} :
    LeftOutAs m reason → e.TellsOf m.name reason → Accounted ms ds es →
      Accounted (m :: ms) ds (e :: es)

namespace Accounted

variable {ms : List MemberDecl} {ds : List MemberDescriptor} {es : List Event}

theorem of_table (ms : List MemberDecl) :
    Accounted ms (ms.filterMap MemberDecl.select) (ms.filterMap MemberDecl.report) := by
  induction ms with
  | nil => exact .nil
  | cons m ms ih =>
    rcases m.select_or_report with ⟨d, hs, hr, h⟩ | ⟨e, reason, hs, hr, h, ht⟩
    · rw [List.filterMap_cons_some hs, List.filterMap_cons_none hr]
      exact .selected h ih
    · rw [List.filterMap_cons_none hs, List.filterMap_cons_some hr]
      exact .leftOut h ht ih

theorem length_eq (h : Accounted ms ds es) : ms.length = ds.length + es.length := by
  induction h with
  | nil => rfl
  | selected _ _ ih =>
    rw [List.length_cons, List.length_cons, ih]
    omega
  | leftOut _ _ _ ih =>
    rw [List.length_cons, List.length_cons, ih]
    omega

/-- A name stands as often in the table as among the keys and the events together. -/
theorem count_eq (h : Accounted ms ds es) (name : String) :
    (namesOf ms).count name = (ds.map MemberDescriptor.name).count name +
      es.countP (fun e => e.fields = [("member", name)]) := by
  induction h with
  | nil => rfl
  | selected ht _ ih =>
    simp only [namesOf, List.map_cons, List.count_cons, ht.name] at ih ⊢
    omega
  | leftOut _ ht _ ih =>
    simp only [namesOf, List.map_cons, List.count_cons, List.countP_cons, ht.fields] at ih ⊢
    simp only [List.cons.injEq, Prod.mk.injEq, and_true, true_and, decide_eq_true_eq,
      beq_iff_eq] at ih ⊢
    omega

theorem level_eq (h : Accounted ms ds es) : ∀ e ∈ es, e.level = .trace := by
  induction h with
  | nil => exact fun _ h => absurd h List.not_mem_nil
  | selected _ _ ih => exact ih
  | leftOut _ ht _ ih => exact List.forall_mem_cons.mpr ⟨ht.level, ih⟩

end Accounted

/-! ## Scans -/

/-- **What a scan reports.**  For a structure these are, in the order of the table, one event for
each member that is left out, with the first reason against it, and behind them one that says how
many members were selected of how many.  Every member has its place in the descriptor or in one of
the events, so the numbers add up, and so does the number of times that a name occurs.  Of an
enumeration or a union there is nothing but one event that it was skipped, whatever properties it
declares. -/
theorem scan_accounts (decl : TypeDecl) :
    (∀ kind, decl.kind = some kind → ∃ d reports last,
      decl.scan = (some d, reports ++ [last]) ∧
      Accounted decl.members d.members reports ∧ (∀ e ∈ reports, e.level = .trace) ∧
      last.level = .debug ∧ last.message = "scanned type" ∧
      last.fields = [("type_name", decl.name), ("namespace", decl.nameSpace),
        ("selected", toString d.members.length), ("declared", toString decl.members.length)] ∧
      decl.members.length = d.members.length + reports.length ∧
      ∀ name, (namesOf decl.members).count name =
        d.keys.count name + reports.countP (fun e => e.fields = [("member", name)])) ∧
    (decl.kind = none → ∃ e, decl.scan = (none, [e]) ∧ e.level = .debug ∧
      e.message = "not a struct, skipping" ∧ e.fields = [("type_name", decl.name)]) ∧
    ∀ item, TypeDecl.ofItem item = .ok decl →
      (decl.kind = none ↔ item.data = .enumeration ∨ item.data = .union) := by
  refine ⟨fun kind hk => ?_, fun hk => ?_, fun item hitem => ?_⟩
  · have haccount := Accounted.of_table decl.members
    obtain ⟨d, hmembers, hscan⟩ : ∃ d : TypeDescriptor, d.members = decl.selected ∧
        decl.scan = (some d, decl.members.filterMap MemberDecl.report ++
          [.scanned decl.name decl.nameSpace d.members.length decl.members.length]) := by
      unfold TypeDecl.scan
      rw [hk]
      exact ⟨_, rfl, rfl⟩
    rw [TypeDecl.selected] at hmembers
    rw [← hmembers] at haccount
    exact ⟨d, _, _, hscan, haccount, haccount.level_eq, rfl, rfl, rfl, haccount.length_eq,
      haccount.count_eq⟩
  · refine ⟨.skipped decl.name, ?_, rfl, rfl, rfl⟩
    unfold TypeDecl.scan
    rw [hk]
  · rw [(TypeDecl.head_of_ofItem hitem).2]
    cases item.data <;> simp [TypeDecl.shape]

/-- A member of the table below. -/
def testMember (name : String) (visibility : Visibility) (included ignored : Bool)
    (kind : MemberKind) : MemberDecl :=
  ⟨name, none, .word "i32", visibility, included, ignored, kind⟩

/-- A table where the reasons overlap: all three are against the first member, two against the
third. -/
def testTable : TypeDecl where
  name := "T"
  kind := some .struct
  visibility := .unrestricted
  nameSpace := "n"
  crate := defaultCrate
  generics := .empty
  members := [testMember "a" .inherited false true (.property (some "a") none),
    testMember "b" .unrestricted true false (.property (some "b") (some "set_b")),
    testMember "c" .inherited false false (.property none (some "set_c")),
    testMember "d" .unrestricted false false (.property none none),
    testMember "e" .inherited true false (.field (.named "e")),
    testMember "f" .unrestricted true true (.field (.named "f"))]

theorem scan_accounts_testTable :
    testTable.kind = some .struct ∧ ∃ d reports last,
      testTable.scan = (some d, reports ++ [last]) ∧ d.keys = ["b", "e"] ∧
      reports.map (fun e => (e.message, e.fields)) =
        [("ignored", [("member", "a")]), ("not public and not included", [("member", "c")]),
          ("property is not read-write", [("member", "d")]), ("ignored", [("member", "f")])] ∧
      last.message = "scanned type" ∧
      testTable.members.length = d.members.length + reports.length := by
  obtain ⟨hstruct, -, -⟩ := scan_accounts testTable
  obtain ⟨d, reports, last, hscan, -, -, -, hmessage, -, hlength, -⟩ := hstruct .struct rfl
  have hevents : testTable.members.filterMap MemberDecl.report = reports := by
    have h := congrArg (fun r => r.2.dropLast) hscan
    rw [List.dropLast_concat] at h
    exact h
  have hkeys : testTable.selected.map MemberDescriptor.name = d.keys := by
    cases congrArg Prod.fst hscan
    rfl
  refine ⟨rfl, d, reports, last, hscan, hkeys ▸ by decide, hevents ▸ by decide, hmessage, hlength⟩

end KeyedRecord.Derive
