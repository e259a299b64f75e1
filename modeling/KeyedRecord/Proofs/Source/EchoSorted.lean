import KeyedRecord.Proofs.Source.EchoArguments

/-!
# Lists of generic arguments echo

Lifetimes print before the other arguments, so an argument may stand between others in a print than
in its source.  It is found again wherever an argument may stand.

Principal result: `angleArguments_echo`.
-/

set_option autoImplicit false

namespace KeyedRecord.Source

namespace Grammar

/-! ## The canonical order of arguments -/

/-- A generic argument, with a mark for lifetimes, and whether a comma follows. -/
abbrev Argument := (Bool × Phrase) × Bool

/-- The form of a list of generic arguments. -/
abbrev argumentsForm : Form (List Argument) := .list "," (.marked .phrase)

/-- Generic arguments in canonical order: the lifetimes come first, and a comma follows each of them
if others do. -/
def sorted (items : List Argument) : List Argument :=
  let lifetimes := items.filter (·.1.1)
  let others := items.filter (!·.1.1)
  (if others.isEmpty then lifetimes else lifetimes.map fun i => (i.1, true)) ++ others

/-- Only behind the last item of a list the comma may be missing. -/
def Separated (items : List Argument) : Prop := ∀ i ∈ items.dropLast, i.2 = true

variable {items : List Argument}

theorem Separated.filter (h : Separated items) (p : Argument → Bool) :
    Separated (items.filter p) := by
  rcases List.eq_nil_or_concat items with rfl | ⟨init, x, rfl⟩
  · exact h
  · intro i hi
    rw [List.concat_eq_append, Separated, List.dropLast_concat] at h
    rw [List.concat_eq_append, List.filter_append] at hi
    refine h i ?_
    cases hx : p x
    · simp only [hx, List.filter_cons, List.filter_nil, Bool.false_eq_true, if_false,
        List.append_nil] at hi
      exact (List.mem_filter.mp (List.dropLast_subset _ hi)).1
    · simp only [hx, List.filter_cons, List.filter_nil, if_true, List.dropLast_concat] at hi
      exact (List.mem_filter.mp hi).1

/-- The comma that is put behind the last lifetime. -/
theorem tokens_closed (h : Separated items) :
    argumentsForm.tokens items ++ (match items.getLast? with
      | some (_, false) => operatorTokens ",".toList
      | _ => []) = argumentsForm.tokens (items.map fun i => (i.1, true)) := by
  induction items with
  | nil => rfl
  | cons i items ih =>
    cases items with
    | nil => obtain ⟨p, more⟩ := i; cases more <;> simp [Form.list]
    | cons j items =>
      obtain ⟨p, more⟩ := i
      obtain rfl : more = true := h (p, more) (by simp)
      have ih := ih fun k hk => h k (by simp [hk])
      rw [List.getLast?_cons_cons]
      simp only [Form.list, List.flatMap_cons, List.map_cons, List.append_assoc] at ih ⊢
      rw [ih]

theorem Separated.sorted (h : Separated items) : Separated (sorted items) := by
  unfold Grammar.sorted
  have hothers := h.filter fun i => !i.1.1
  generalize items.filter (fun i => !i.1.1) = others at *
  cases others with
  | nil => simpa using h.filter _
  | cons o others =>
    intro i hi
    rw [List.dropLast_append_of_ne_nil (by simp)] at hi
    simp only [List.isEmpty_cons, Bool.false_eq_true, if_false, List.mem_append, List.mem_map] at hi
    rcases hi with ⟨j, -, rfl⟩ | hi
    · rfl
    · exact hothers i hi

theorem mem_of_mem_sorted {i : Argument} (h : i ∈ sorted items) : ∃ more, (i.1, more) ∈ items := by
  unfold sorted at h
  rw [List.mem_append] at h
  rcases h with h | h
  · split at h
    · exact ⟨i.2, (List.mem_filter.mp h).1⟩
    · obtain ⟨j, hj, rfl⟩ := List.mem_map.mp h
      exact ⟨j.2, (List.mem_filter.mp hj).1⟩
  · exact ⟨i.2, (List.mem_filter.mp h).1⟩

theorem sorted_sorted (items : List Argument) : sorted (sorted items) = sorted items := by
  have hl : ∀ i ∈ items.filter (·.1.1), i.1.1 = true := fun i hi => (List.mem_filter.mp hi).2
  have ho : ∀ i ∈ items.filter (!·.1.1), i.1.1 = false := fun i hi => by
    simpa using (List.mem_filter.mp hi).2
  unfold sorted
  generalize items.filter (·.1.1) = lifetimes at *
  generalize items.filter (!·.1.1) = others at *
  have hfilter (l : List Argument) (hl : ∀ i ∈ l, i.1.1 = true) :
      (l ++ others).filter (·.1.1) = l ∧ (l ++ others).filter (!·.1.1) = others := by
    have h₁ : l.filter (!·.1.1) = [] := List.filter_eq_nil_iff.mpr fun i hi => by simp [hl i hi]
    have h₂ : others.filter (·.1.1) = [] := List.filter_eq_nil_iff.mpr fun i hi => by simp [ho i hi]
    have h₃ : others.filter (!·.1.1) = others := List.filter_eq_self.mpr fun i hi =>
      by simp [ho i hi]
    simp only [List.filter_append, List.filter_eq_self.mpr hl, h₁, h₂, h₃, List.append_nil,
      List.nil_append, and_self]
  cases others with
  | nil =>
    obtain ⟨h₁, h₂⟩ := hfilter lifetimes hl
    simp only [List.isEmpty_nil, if_true, h₁, h₂]
  | cons o others =>
    obtain ⟨h₁, h₂⟩ := hfilter (lifetimes.map fun i => (i.1, true)) (by simpa using hl)
    simp only [List.isEmpty_cons, Bool.false_eq_true, if_false, h₁, h₂, List.map_map]
    rfl

/-- Rereading does not change which arguments are lifetimes. -/
theorem sorted_canon (items : List Argument) :
    sorted (argumentsForm.canon items) = argumentsForm.canon (sorted items) := by
  simp only [sorted, Form.list, Form.marked, List.filter_map, Function.comp_def, List.isEmpty_map,
    List.map_append]
  congr 1
  split
  · rfl
  · simp only [List.map_map, Function.comp_def]

/-- The arguments as a list without marks. -/
def listed (items : List Argument) : Phrase := .separated "," (items.map fun i => (i.1.2, i.2))

theorem listed_printed (items : List Argument) :
    (listed items).printed = argumentsForm.tokens items := by
  simp [listed, Phrase.printed_separated, Form.list, Form.marked, Form.phrase, List.flatMap_map]

theorem listed_canonical (items : List Argument) :
    (listed items).canonical = listed (argumentsForm.canon items) := by
  simp [listed, Phrase.canonical_separated, Form.list, Form.marked, Form.phrase, Function.comp_def]

theorem lifetimesFirst_printed (h : Separated items) :
    (lifetimesFirst (items.map fun i => (i.1.1, i.1.2, i.2))).printed =
      argumentsForm.tokens (sorted items) := by
  have hplain (is : List Argument) : (Phrase.separated ","
      ((is.map fun i => (i.1.1, i.1.2, i.2)).map (·.2))).printed = argumentsForm.tokens is := by
    rw [List.map_map]
    exact listed_printed is
  have hl := h.filter (·.1.1)
  simp only [lifetimesFirst, sorted, List.filter_map, Function.comp_def,
    Phrase.printed_append, hplain,
    List.isEmpty_map, List.getLast?_map]
  generalize items.filter (·.1.1) = lifetimes at *
  generalize items.filter (!·.1.1) = others at *
  have happend (a b : List Argument) :
      argumentsForm.tokens (a ++ b) = argumentsForm.tokens a ++ argumentsForm.tokens b := by
    simp [Form.list]
  rw [happend]
  congr 1
  cases others with
  | nil =>
    simp only [List.isEmpty_nil, if_true]
    split <;> simp
  | cons o others =>
    simp only [List.isEmpty_cons, Bool.false_eq_true, if_false]
    rw [← tokens_closed hl]
    congr 1
    rcases lifetimes.getLast? with _ | ⟨⟨l, p⟩, _ | _⟩ <;> rfl

/-- Sorted arguments of a print are sorted again. -/
theorem lifetimesFirst_canonical (h : Separated items) :
    (lifetimesFirst (items.map fun i => (i.1.1, i.1.2, i.2))).canonical =
      lifetimesFirst ((argumentsForm.canon (sorted items)).map fun i => (i.1.1, i.1.2, i.2)) := by
  have hsep : Separated (argumentsForm.canon (sorted items)) := by
    intro i hi
    simp only [Form.list, ← List.map_dropLast] at hi
    obtain ⟨j, hj, rfl⟩ := List.mem_map.mp hi
    exact h.sorted j hj
  have hprinted := lifetimesFirst_printed hsep
  have hwritten : (lifetimesFirst ((argumentsForm.canon (sorted items)).map fun i =>
      (i.1.1, i.1.2, i.2))).written = argumentsForm.tokens (sorted items) := by
    have hlisted (is : List Argument) :
        (lifetimesFirst (is.map fun i => (i.1.1, i.1.2, i.2))).written = (listed is).written := by
      simp [lifetimesFirst, listed, Function.comp_def]
    rw [hlisted, ← listed_canonical]
    exact listed_printed (sorted items)
  rw [sorted_canon, sorted_sorted, ← listed_printed, ← listed_canonical, Phrase.printed_canonical,
    listed_printed] at hprinted
  show Phrase.mk _ _ = Phrase.mk _ _
  rw [lifetimesFirst_printed h]
  exact congrArg₂ Phrase.mk hwritten.symm hprinted.symm

/-! ## Lists of arguments -/

/-- What was read is found again in print, wherever an argument may end. -/
def Reads {α : Type} (L : Nat) (F : Form α) (q : Reader α) (a : α) : Prop :=
  Fit (F.tokens a) ∧ ∀ us w, tokensOf us = F.tokens a → ArgumentEnd [] w →
    Front.op ">" (us ++ w) = false ∧ ((F.tokens a).length < L → q (us ++ w) = .ok (F.canon a, w))

variable {L : Nat} {item item' : Reader (Bool × Phrase)} {ts r : List Placed}

/-- What a list of arguments was read from. -/
theorem reads_of_listUntil {n : Nat}
    (hitem : ∀ ts, EchoAt L (.marked .phrase) [] Onset (fun _ => ArgumentEnd) item item' ts)
    (hs : Sound (tokensOf ts))
    (h : Reader.listUntilFuel (Front.op ">") "," item n ts = .ok (items, r)) :
    r <:+ ts ∧ ∀ i ∈ items, Reads L (.marked .phrase) item' i.1 := by
  induction n generalizing ts items with
  | zero => cases h
  | succ n ih =>
    rw [Reader.listUntilFuel, Reader.ask_apply] at h
    split at h
    · cases h
      exact ⟨List.suffix_rfl, by simp⟩
    obtain ⟨a, s, ha, h⟩ := Reader.bind_eq_ok h
    obtain ⟨hsuf, out, ho, hf, hq⟩ := hitem ts hs a s ha
    have hreads : Reads L (.marked .phrase) item' a := by
      rw [List.nil_append] at ho
      subst ho
      exact ⟨hf, fun us w hu hw => ⟨(hq us w hu hw).1.not_close, (hq us w hu hw).2⟩⟩
    rw [Reader.ask_apply] at h
    split at h
    · cases h
      exact ⟨hsuf, by simpa using hreads⟩
    obtain ⟨_, s', hop, h⟩ := Reader.bind_eq_ok h
    obtain ⟨as, s'', has, h⟩ := Reader.bind_eq_ok h
    cases h
    have hs' : s' <:+ s := by
      unfold Reader.op at hop
      split at hop <;> cases hop
      exact List.drop_suffix _ _
    obtain ⟨hr, hmem⟩ := ih (hs.suffix (tokensOf_suffix (hs'.trans hsuf))) has
    refine ⟨hr.trans (hs'.trans hsuf), fun i hi => ?_⟩
    rcases List.mem_cons.mp hi with rfl | hi
    · exact hreads
    · exact hmem i hi

/-- A list of arguments is read from its print. -/
theorem listUntil_of_reads {m : Nat} (hsep : Separated items)
    (hmem : ∀ i ∈ items, Reads L (.marked .phrase) item' i.1) {us w : List Placed}
    (hu : tokensOf us = argumentsForm.tokens items) (hw : Front.op ">" w = true)
      (hend : ArgumentEnd [] w)
    (hL : (argumentsForm.tokens items).length < L) (hm : (argumentsForm.tokens items).length < m) :
    Reader.listUntilFuel (Front.op ">") "," item' m (us ++ w) =
      .ok (argumentsForm.canon items, w) := by
  induction items generalizing m us with
  | nil =>
    obtain rfl : us = [] := List.map_eq_nil_iff.mp hu
    obtain ⟨m, rfl⟩ := Nat.exists_eq_add_of_lt hm
    rw [List.nil_append, Reader.listUntilFuel, Reader.ask_apply, if_pos hw]
    rfl
  | cons i items ih =>
    obtain ⟨a, more⟩ := i
    obtain ⟨-, hread⟩ := hmem (a, more) (by simp)
    have htokens : argumentsForm.tokens ((a, more) :: items) = Form.tokens (.marked .phrase) a ++
        ((if more then operatorTokens ",".toList else []) ++ argumentsForm.tokens items) :=
      List.append_assoc ..
    rw [htokens] at hu hL hm
    simp only [List.length_append] at hL hm
    obtain ⟨us₁, us', rfl, hu₁, hu'⟩ := List.map_eq_append_iff.mp hu
    obtain ⟨us₂, us₃, rfl, hu₂, hu₃⟩ := List.map_eq_append_iff.mp hu'
    obtain ⟨m, rfl⟩ : ∃ k, m = k + 1 := ⟨m - 1, by omega⟩
    have ha : (Form.tokens (.marked .phrase) a).length < L := by omega
    rw [List.append_assoc, List.append_assoc, Reader.listUntilFuel, Reader.ask_apply]
    cases more with
    | false =>
      obtain rfl : items = [] := by
        cases items with
        | nil => rfl
        | cons j items => cases hsep (a, false) (by simp)
      obtain rfl : us₂ = [] := List.map_eq_nil_iff.mp hu₂
      obtain rfl : us₃ = [] := List.map_eq_nil_iff.mp hu₃
      obtain ⟨hstop, hitem⟩ := hread us₁ w hu₁ hend
      rw [List.nil_append, List.nil_append, if_neg (by simp [hstop])]
      refine Reader.bind_eq_ok_iff.mpr ⟨_, _, hitem ha, ?_⟩
      rw [Reader.ask_apply, if_pos hw]
      rfl
    | true =>
      obtain ⟨⟨t, s⟩, rfl, ht⟩ := List.map_eq_singleton_iff.mp hu₂
      obtain rfl : t = .punct ',' false := ht
      obtain ⟨hstop, hitem⟩ := hread us₁ (⟨.punct ',' false, s⟩ :: (us₃ ++ w)) hu₁
        ⟨',', s, _, .inl rfl, rfl⟩
      have hcomma : Reader.op "," (⟨.punct ',' false, s⟩ :: (us₃ ++ w)) =
          .ok (.operator ",", us₃ ++ w) := by
        simp only [Reader.op, Front.op]
        rfl
      have hone : (operatorTokens ",".toList).length = 1 := rfl
      have hrest := ih (m := m) (fun i hi => hsep i ?_) (fun i hi => hmem i (by simp [hi])) hu₃
        (by omega) (by simp only [if_true, hone] at hm; omega)
      · rw [List.singleton_append, if_neg (by simp [hstop])]
        refine Reader.bind_eq_ok_iff.mpr ⟨_, _, hitem ha, ?_⟩
        rw [Reader.ask_apply, if_neg (by simp [Front.op, Front.isOperator])]
        exact Reader.bind_eq_ok_iff.mpr ⟨_, _, hcomma, Reader.bind_eq_ok_iff.mpr ⟨_, _, hrest, rfl⟩⟩
      · cases items with
        | nil => simp at hi
        | cons j items => exact List.mem_cons_of_mem _ hi

/-- Tokens between arguments may stand anywhere if the arguments may. -/
theorem fit_arguments (h : ∀ i ∈ items, Fit (Form.tokens (.marked .phrase) i.1)) :
    Fit (argumentsForm.tokens items) := by
  induction items with
  | nil => exact .nil
  | cons i items ih =>
    obtain ⟨a, more⟩ := i
    refine ((h (a, more) (by simp)).append ?_).append (ih fun j hj => h j (by simp [hj]))
    cases more
    · exact .nil
    · exact fit_operatorTokens (by decide)

/-- Arguments of which the lifetimes print first. -/
def sortedForm : Form (List Argument) :=
  ⟨fun items => argumentsForm.tokens (sorted items), fun items =>
    argumentsForm.canon (sorted items)⟩

theorem arguments_echo {M : Sight}
    (hitem : ∀ ts, EchoAt L (.marked .phrase) [] Onset (fun _ => ArgumentEnd) item item' ts) :
    EchoAt L sortedForm [] .any (fun _ => OnOperator ">" M)
      (Reader.listUntil (Front.op ">") "," item)
        (Reader.listUntil (Front.op ">") "," item') ts := by
  intro hs items r hr
  obtain ⟨hsuf, hmem⟩ := reads_of_listUntil hitem hs hr
  have hsep : Separated items := Reader.listUntilFuel_separated hr
  have hmem : ∀ i ∈ sorted items, Reads L (.marked .phrase) item' i.1 := fun i hi => by
    obtain ⟨more, hi⟩ := mem_of_mem_sorted hi
    exact hmem (i.1, more) hi
  refine ⟨hsuf, _, rfl, fit_arguments fun i hi => (hmem i hi).1, fun us w hu hw =>
    ⟨trivial, fun hl => ?_⟩⟩
  have hend : ArgumentEnd r w := .of_close hw
  refine listUntil_of_reads hsep.sorted hmem hu (hw.op_self (by decide)) hend hl ?_
  have : us.length = (argumentsForm.tokens (sorted items)).length := by
    rw [← List.length_map (f := Placed.token)]
    exact congrArg List.length hu
  rw [List.length_append]
  omega

variable {g g' : Nesting} {K J : Nat}

/-- Arguments between angle brackets, behind the colons that stand before them. -/
def angleRest (g : Nesting) (colons : Option Phrase) : Reader Phrase := do
  let lt ← Reader.op "<"
  let items ← Reader.listUntil (Front.op ">") "," (genericArgument g)
  let gt ← Reader.op ">"
  return Phrase.ofOption colons ++ lt ++ lifetimesFirst (items.map fun i => (i.1.1, i.1.2, i.2)) ++
    gt

theorem angleRest_echo (h : g.Echo g' K J) {E : Sight} {colons : Option Phrase} {pre : List Token}
    (hpre : (Phrase.ofOption colons).printed = pre)
    (hcolons : (Phrase.ofOption colons).canonical = Phrase.ofOption colons) :
    EchoAt (K + 1) .phrase pre (OnOperator "<" .any) (fun _ => E) (angleRest g colons)
      (angleRest g' colons) ts := by
  unfold angleRest
  refine .op_then (by decide) fun _ => ?_
  refine .bind (D := K) (G := sortedForm) (M := fun _ => OnOperator ">" E)
    (by simp [operatorTokens]) (arguments_echo fun ts => genericArgument_echo h)
      fun items r hr => ?_
  have hsep : Separated items := Reader.listUntilFuel_separated hr
  refine .op_then (by decide) fun _ => .pure ?_ ?_ fun _ h => h
  · simp [Form.phrase, sortedForm, lifetimesFirst_printed hsep, hpre]
  · simp [Form.phrase, sortedForm, lifetimesFirst_canonical hsep, hcolons]

/-- The start of arguments between angle brackets. -/
def AngleStart : Sight := fun ts u => OnOperator "::" (OnOperator "<" .any) ts u ∨
    OnOperator "<" .any ts u

theorem angleArguments_echo (h : g.Echo g' K J) {E : Sight} :
    EchoAt (K + 1) .phrase [] AngleStart (fun _ => E) (angleArguments g)
      (angleArguments g') ts := by
  have run (g : Nesting) : angleArguments g = Reader.op? "::" >>= angleRest g := rfl
  rw [run, run]
  exact .op? (by decide) (fun _ => angleRest_echo h rfl rfl) (fun _ => angleRest_echo h rfl rfl)
    (fun _ => .inl) fun _ u hu => ⟨(hu.op (by decide) _).trans (by decide), .inr hu⟩

end Grammar

end KeyedRecord.Source
