import Mathlib.Data.List.DropRight
import KeyedRecord.Derive.Unit

/-!
# What the name of a unit tells

The name of a unit joins a namespace and the name of a type with dots, and escapes nothing.  A
namespace may have any text, dots and endings like those of a unit among it; the name of a type is
an identifier, which has no dots.  So the name of a unit can be read from its end, where the last
dot in front of the ending parts the two, and no two pairs of a namespace and a type share one:
`unitName_inj`.
-/

set_option autoImplicit false

namespace KeyedRecord.Derive

open Source

/-! ## Names of types -/

theorem not_mem_of_isWord {cs : List Char} (h : isTypeName.isWord cs = true) {c : Char}
    (hc : Text.isWordPart c = false) : c ∉ cs := by
  have hnot : ∀ d, Text.isWordPart d = true → c ≠ d := by
    rintro d hd rfl
    rw [hc] at hd
    cases hd
  cases cs with
  | nil => exact List.not_mem_nil
  | cons d r =>
    obtain ⟨hd, hr⟩ := Bool.and_eq_true_iff.mp h
    rintro hmem
    rcases List.mem_cons.mp hmem with rfl | hmem
    · exact hnot c (Text.isWordStart_imp_isWordPart hd) rfl
    · exact hnot c (List.all_eq_true.mp hr c hmem) rfl

/-- The name of a type has the characters of an identifier, and possibly the mark of a raw one. -/
theorem not_mem_of_isTypeName {name : String} (h : isTypeName name = true) {c : Char}
    (hc : Text.isWordPart c = false) (hmark : c ≠ '#') : c ∉ name.toList := by
  unfold isTypeName at h
  split at h
  · rename_i r hr
    have hletter : c ≠ 'r' := by
      rintro rfl
      exact absurd hc (by decide)
    have := not_mem_of_isWord (Bool.and_eq_true_iff.mp h).1 hc
    rw [hr]
    simp [this, hmark, hletter]
  · exact not_mem_of_isWord h hc

/-! ## Reading the name of a unit -/

/-- The namespace and the type that the name of a unit tells: between the fixed texts at both ends,
the last dot parts the two. -/
def readUnitName (name : String) : String × String :=
  let inner := (name.toList.drop "objdict.".length).rdrop ".g".length
  (String.ofList (inner.rdropWhile (· != '.')).dropLast,
    String.ofList (inner.rtakeWhile (· != '.')))

theorem rdropWhile_append_cons {as bs : List Char} {c : Char} (h : c ∉ bs) :
    (as ++ c :: bs).rdropWhile (· != c) = as ++ [c] := by
  induction bs using List.reverseRecOn with
  | nil => exact List.rdropWhile_concat_neg _ _ _ (by simp)
  | append_singleton bs b ih =>
    rw [List.mem_append, List.mem_singleton, not_or] at h
    have hb : b ≠ c := Ne.symm h.2
    rw [← List.cons_append, ← List.append_assoc, List.rdropWhile_concat,
      if_pos (by simpa using hb), ih h.1]

theorem rtakeWhile_append_cons {as bs : List Char} {c : Char} (h : c ∉ bs) :
    (as ++ c :: bs).rtakeWhile (· != c) = bs := by
  have hsplit := List.rdropWhile_append_rtakeWhile (p := (· != c)) (l := as ++ c :: bs)
  rw [rdropWhile_append_cons h, List.append_assoc, List.singleton_append] at hsplit
  exact List.cons_inj_right c |>.mp (List.append_cancel_left hsplit)

/-- A name whose type has no dots is read back, whatever the namespace is. -/
theorem readUnitName_unitName (nameSpace : String) {name : String} (h : '.' ∉ name.toList) :
    readUnitName (unitName nameSpace name) = (nameSpace, name) := by
  have hinner : ((unitName nameSpace name).toList.drop "objdict.".length).rdrop ".g".length =
      nameSpace.toList ++ '.' :: name.toList := by
    have hl : (unitName nameSpace name).toList =
        "objdict.".toList ++ ((nameSpace.toList ++ '.' :: name.toList) ++ ".g".toList) := by
      simp [unitName, String.toList_append]
    rw [hl, ← String.length_toList, List.drop_left, List.rdrop, List.length_append,
      ← String.length_toList, Nat.add_sub_cancel, List.take_left]
  simp only [readUnitName, hinner, rdropWhile_append_cons h, rtakeWhile_append_cons h,
    List.dropLast_concat, String.ofList_toList]

/-- Namespaces may have dots and names of types have none, so a name has one reading. -/
theorem unitName_inj {nameSpace nameSpace' name name' : String} (h : isTypeName name = true)
    (h' : isTypeName name' = true) (he : unitName nameSpace name = unitName nameSpace' name') :
    nameSpace = nameSpace' ∧ name = name' := by
  have noDot {t : String} (ht : isTypeName t = true) : '.' ∉ t.toList :=
    not_mem_of_isTypeName ht (by decide) (by decide)
  have hread : (nameSpace, name) = (nameSpace', name') := by
    rw [← readUnitName_unitName nameSpace (noDot h), he,
      readUnitName_unitName nameSpace' (noDot h')]
  exact Prod.mk.inj hread

/-! ## Identifiers -/

/-- The text is one identifier, raw or not: the lexer reads it to its end. -/
def IsIdentifier (text : String) : Prop := Lexer.anyIdent text.toList = some (text.toList, [])

instance (text : String) : Decidable (IsIdentifier text) :=
  inferInstanceAs (Decidable (Lexer.anyIdent text.toList = some (text.toList, [])))

theorem isWord_of_word {cs r : List Char} (h : Lexer.word cs = some (r, [])) :
    isTypeName.isWord cs = true := by
  unfold Lexer.word at h
  split at h
  · rename_i c cs
    split at h
    · rename_i hc
      have hrest : cs.dropWhile Text.isWordPart = [] := (Prod.mk.inj (Option.some.inj h)).2
      exact Bool.and_eq_true_iff.mpr ⟨hc, List.all_eq_true.mpr (List.dropWhile_eq_nil_iff.mp hrest)⟩
    · cases h
  · cases h

/-- What the lexer reads as one identifier can name a type. -/
theorem IsIdentifier.isTypeName {text : String} (h : IsIdentifier text) :
    Derive.isTypeName text = true := by
  unfold IsIdentifier Lexer.anyIdent at h
  unfold Derive.isTypeName
  split at h
  · rename_i r hr
    rw [hr] at h
    simp only [hr]
    cases hw : Lexer.word r with
    | none =>
      rw [hw] at h
      cases h
    | some read =>
      obtain ⟨w, t⟩ := read
      simp only [hw] at h
      split at h
      · cases h
      · rename_i hraw
        cases h
        simp [isWord_of_word hw, hraw]
  · rename_i hraw
    split
    · rename_i r hr
      exact absurd hr (hraw r)
    · exact isWord_of_word h

/-- **The name of a unit is unique to its namespace and its type.**  Whatever text the namespace is,
with dots or endings like those of a unit in it or none at all, both are read back from the name
where the type is named by an identifier; so no other namespace and identifier have a unit of this
name. -/
theorem unitName_unique (nameSpace : String) {name : String} (h : IsIdentifier name) :
    readUnitName (unitName nameSpace name) = (nameSpace, name) ∧
    ∀ nameSpace' name', IsIdentifier name' →
      (unitName nameSpace name = unitName nameSpace' name' ↔
        nameSpace = nameSpace' ∧ name = name') := by
  have hdot : '.' ∉ name.toList := not_mem_of_isTypeName h.isTypeName (by decide) (by decide)
  refine ⟨readUnitName_unitName nameSpace hdot, fun nameSpace' name' h' => ⟨fun he => ?_, ?_⟩⟩
  · exact unitName_inj h.isTypeName h'.isTypeName he
  · rintro ⟨rfl, rfl⟩
    rfl

/-- A namespace that ends like the name of a unit. -/
theorem unitName_unique_raw :
    IsIdentifier "r#type" ∧ IsIdentifier "g" ∧
    readUnitName (unitName "a.b.g" "r#type") = ("a.b.g", "r#type") ∧
    unitName "a.b.g" "r#type" ≠ unitName "a.b.g.r#type" "g" := by
  have hraw : IsIdentifier "r#type" := by decide
  have hg : IsIdentifier "g" := by decide
  obtain ⟨hread, hunique⟩ := unitName_unique "a.b.g" hraw
  refine ⟨hraw, hg, hread, fun he => ?_⟩
  have hname : "r#type" = "g" := ((hunique "a.b.g.r#type" "g" hg).mp he).2
  exact absurd hname (by decide)

/-- A text with dots is no identifier, and does share names. -/
example : unitName "a" "b.c" = unitName "a.b" "c" ∧ ¬ IsIdentifier "b.c" := by decide

end KeyedRecord.Derive
