import KeyedRecord.Proofs.Source.Origins

/-!
# Texts of types

The canonical text of a type is lexed as its print, and the print is read as the same type.  So a
text that was made from a type is one of this type again: `IsType.readText_eq`.

Fields between braces are kept as a phrase too, in place of a type.  Their text starts with a word
and a brace, and no type does: `not_readText_of_standsInline`.
-/

set_option autoImplicit false

namespace KeyedRecord.Source

/-! ## Types -/

/-- **The text of a type is read as this type, in canonical order.** -/
theorem IsType.readText_eq {t : Phrase} (h : IsType t) :
    readText readType t.text = .ok t.canonical := by
  obtain ⟨n, ts, r, hs, hread⟩ := h
  obtain ⟨hfit, hagain⟩ := Nesting.anyType_again hs hread
  obtain ⟨us, hlex, hus⟩ := lex_canonicalText hfit
  simp only [readText, Phrase.text, hlex, Reader.whole_eq_ok_iff, hagain us hus]

/-- What a lexed text is read as is a type. -/
theorem isType_of_lex {text : String} {ts r : List Placed} {t : Phrase} (hlex : lex text = .ok ts)
    (h : readType ts = .ok (t, r)) : IsType t :=
  ⟨_, ts, r, sound_of_lex hlex, h⟩

/-! ## Fields between braces -/

section Inline

variable {w : String}

/-- What starts with such a word and a brace is no type.  The one word is reserved, and behind the
other a type ends. -/
theorem readType_inline_ne (hw : w = "struct" ∨ w = "union") (s s' : Span) (ts : List Placed)
    (t : Phrase) :
    readType (⟨.ident w, s⟩ :: ⟨.opening .brace, s'⟩ :: ts) ≠ .ok (t, []) := by
  intro h
  obtain ⟨n, hrun⟩ : ∃ n, (Nesting.levels (n + 1)).anyType
    (⟨.ident w, s⟩ :: ⟨.opening .brace, s'⟩ :: ts) =
      .ok (t, []) := ⟨_, h⟩
  rcases hw with rfl | rfl
  · obtain ⟨e, he⟩ : ∃ e, (Nesting.levels (n + 1)).anyType
        (⟨.ident "struct", s⟩ :: ⟨.opening .brace, s'⟩ :: ts) = .error e := ⟨_, rfl⟩
    rw [he] at hrun
    cases hrun
  · have hrest : (Nesting.levels (n + 1)).anyType
      (⟨.ident "union", s⟩ :: ⟨.opening .brace, s'⟩ :: ts) =
        .ok (.word "union", ⟨.opening .brace, s'⟩ :: ts) := rfl
    rw [hrest] at hrun
    cases hrun

open Lexer

theorem lexable_inline (hw : w = "struct" ∨ w = "union") : (Token.ident w).Lexable := by
  rcases hw with rfl | rfl
  · exact lexable_of_ident (s := "struct".toList) (a := "struct".toList) (r := [])
      (by decide +kernel) (by decide +kernel)
  · exact lexable_of_ident (s := "union".toList) (a := "union".toList) (r := []) (by decide +kernel)
      (by decide +kernel)

/-- Fields between braces are lexed as a word and a brace, whatever they hold. -/
theorem lex_inline (hw : w = "struct" ∨ w = "union") {rest : List Token} {us : List Placed}
    (h : lex (canonicalText (.ident w :: .opening .brace :: rest)) = .ok us) :
    ∃ s s' vs, us = ⟨.ident w, s⟩ :: ⟨.opening .brace, s'⟩ :: vs := by
  have htext : (canonicalText (.ident w :: .opening .brace :: rest)).toList =
      w.toList ++ ' ' :: '{' :: textBehind (.opening .brace) rest := by
    calc (canonicalText (.ident w :: .opening .brace :: rest)).toList
      _ = w.toList ++ (" ".toList ++ (canonicalText (.opening .brace :: rest)).toList) :=
        toList_canonicalText _ _
      _ = w.toList ++ (" ".toList ++ ('{' :: textBehind (.opening .brace) rest)) := by
        rw [toList_canonicalText]
        rfl
      _ = w.toList ++ ' ' :: '{' :: textBehind (.opening .brace) rest := rfl
  generalize textBehind (.opening .brace) rest = x at htext
  have hlexable := lexable_inline hw
  obtain ⟨htrivia, hdoc, hleaf⟩ := hlexable.1 (' ' :: '{' :: x) (.inl rfl)
  obtain ⟨fuel, hfuel⟩ : ∃ fuel, (w.toList ++ ' ' :: '{' :: x).length + 1 = fuel + 3 :=
    ⟨(w.toList ++ x).length, by simp; omega⟩
  unfold lex at h
  split at h
  · rename_i r hmark
    rw [htext] at hmark
    rcases hw with rfl | rfl <;> cases hmark
  rw [htext, hfuel, lexFrom_leaf hlexable.2 htrivia hdoc hleaf] at h
  generalize Position.start.advance w.toList = p at h
  have hbrace : lexFrom (fuel + 2) p [] (' ' :: '{' :: x) =
      (Placed.mk (.opening .brace) ⟨p.advance [' '], (p.advance [' ']).step '{'⟩ :: ·) <$>
        lexFrom fuel ((p.advance [' ']).step '{') [(.brace, p.advance [' '])] x := rfl
  rw [hbrace] at h
  cases hrest : lexFrom fuel ((p.advance [' ']).step '{') [(.brace, p.advance [' '])] x with
  | error e => rw [hrest] at h; cases h
  | ok vs =>
    rw [hrest] at h
    cases h
    exact ⟨_, _, vs, rfl⟩

/-- **Fields between braces have no text of a type.** -/
theorem not_readText_of_standsInline {t : Phrase} (h : t.standsInline = true) (p : Phrase) :
    readText readType t.text ≠ .ok p := by
  obtain ⟨w, rest, ht, hw⟩ := Phrase.standsInline_iff.mp h
  intro hread
  unfold readText Phrase.text at hread
  rw [ht] at hread
  cases hlex : lex (canonicalText (.ident w :: .opening .brace :: rest)) with
  | error e => simp [hlex] at hread
  | ok us =>
    obtain ⟨s, s', vs, rfl⟩ := lex_inline hw hlex
    simp only [hlex, Reader.whole_eq_ok_iff] at hread
    exact readType_inline_ne hw s s' vs p hread

end Inline

end KeyedRecord.Source
