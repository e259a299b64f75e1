import KeyedRecord.Catalogue.Plain
import KeyedRecord.Catalogue.Types
import KeyedRecord.Proofs.Record.Laws
import KeyedRecord.Proofs.Value.Text

/-!
# Records with dates

Whether a record whose members travel as text can be changed from its own dictionary depends on its
dates alone: those of plain years come back, and the others do not.  A date that a record was given
may lie in the year before the plain ones or in the year behind them, because its timestamp is read
in the year that it shows and then moved into universal time.

Principal results: `comes_back_iff`, and `comes_back_of_reached` for the dates that `DateTime<Utc>`
members can be given by a `from_dict`.
-/

set_option autoImplicit false

namespace KeyedRecord

variable {R : Registry}

/-- The states that successful changes lead to. -/
inductive Record.Schema.Reached {τ : Type} [MemberTypes R τ] (S : Record.Schema τ)
    (start : S.State) :
    S.State → Prop where
  | start : S.Reached start start
  | change {s u : S.State} {d : Dict R} (h : S.Reached start s)
    (hd : S.fromDict d s = (.ok (), u)) :
    S.Reached start u

namespace Catalogue.Dated

open Record
open Calendar (DateTime)

variable {U : UrlFormat} [Defaults R U]

/-- The record type of the sample. -/
abbrev schema : Schema (MemberType R U) := record.schema

/-- The state of the sample. -/
abbrev start : (schema : Schema (MemberType R U)).State := record.start

/-- A state of the sample type. -/
abbrev SampleState (R : Registry) (U : UrlFormat) [Defaults R U] : Type :=
  (schema : Schema (MemberType R U)).State

/-- The place of the date that is always there. -/
abbrev when_ : Fin (schema : Schema (MemberType R U)).fields.length := (⟨0, by decide⟩ : Fin 5)

/-- The place of the URL that is always there. -/
abbrev link : Fin (schema : Schema (MemberType R U)).fields.length := (⟨1, by decide⟩ : Fin 5)

/-- The place of the date that may be there. -/
abbrev ended : Fin (schema : Schema (MemberType R U)).fields.length := (⟨3, by decide⟩ : Fin 5)

/-- The place of the URL that may be there. -/
abbrev home : Fin (schema : Schema (MemberType R U)).fields.length := (⟨4, by decide⟩ : Fin 5)

/-- The dates of a state. -/
def dates (s : SampleState R U) : List DateTime :=
  (s.get when_ : DateTime) :: (s.get ended : Option DateTime).toList

/-- The URLs of a state. -/
def urls (s : SampleState R U) : List U.Url :=
  (s.get link : U.Url) :: (s.get home : Option U.Url).toList

theorem onlyFields : (schema : Schema (MemberType R U)).OnlyFields := fun _ hp => nomatch hp

theorem selected (i : Fin (schema : Schema (MemberType R U)).fields.length) :
    schema.Selected i := by
  match i with
  | ⟨0, _⟩ => exact ⟨_, rfl⟩
  | ⟨1, _⟩ => exact ⟨_, rfl⟩
  | ⟨2, _⟩ => exact ⟨_, rfl⟩
  | ⟨3, _⟩ => exact ⟨_, rfl⟩
  | ⟨4, _⟩ => exact ⟨_, rfl⟩

/-! ## What comes back -/

/-- A state comes back by way of its dictionary exactly if its dates have plain years, as far as its
URLs are read back. -/
theorem comes_back_iff (s : SampleState R U) (hu : ∀ u ∈ urls s, U.parse? (U.text u) = some u) :
    schema.fromDict (schema.toDict s) s = (.ok (), s) ↔ ∀ t ∈ dates s, t.HasPlainYear := by
  rw [Schema.fromDict_toDict_self_iff onlyFields]
  constructor
  · intro hs t ht
    rcases List.mem_cons.mp ht with rfl | ht
    · exact MemberType.survives_dateTime_iff.mp (hs when_ (selected _))
    · have ho := (MemberType.survives_option_iff (t := .dateTime) (fun x => ⟨_, rfl⟩) _).mp
        (hs ended (selected _))
      exact MemberType.survives_dateTime_iff.mp (ho t (Option.mem_toList.mp ht))
  · intro ht i _
    match i with
    | ⟨0, _⟩ => exact MemberType.survives_dateTime_iff.mpr (ht _ List.mem_cons_self)
    | ⟨1, _⟩ => exact MemberType.survives_url_iff.mpr (hu _ List.mem_cons_self)
    | ⟨2, _⟩ =>
      exact (MemberType.survives_option_iff (t := .uuid) (fun x => ⟨_, rfl⟩) _).mpr
        fun x _ => MemberType.survives_uuid x
    | ⟨3, _⟩ =>
      refine (MemberType.survives_option_iff (t := .dateTime) (fun x => ⟨_, rfl⟩) _).mpr
        fun x hx => ?_
      exact MemberType.survives_dateTime_iff.mpr
        (ht x (List.mem_cons_of_mem _ (Option.mem_toList.mpr hx)))
    | ⟨4, _⟩ =>
      refine (MemberType.survives_option_iff (t := .url) (fun x => ⟨_, rfl⟩) _).mpr fun x hx => ?_
      exact MemberType.survives_url_iff.mpr
        (hu x (List.mem_cons_of_mem _ (Option.mem_toList.mpr hx)))

/-! ## What is accepted -/

/-- The years that a date can be read in. -/
def Near (t : DateTime) : Prop := -1 ≤ t.date.year ∧ t.date.year ≤ 10000

omit [Defaults R U] in
theorem near_of_cast {v : Value R} {t : DateTime} (h : (@MemberType.dateTime R U).cast v = .ok t) :
    Near t := by
  cases v with
  | string s =>
    change MemberType.orMalformed _ .timestamp (DateTime.parse? s) = .ok t at h
    cases hp : DateTime.parse? s with
    | none => rw [hp] at h; cases h
    | some t' =>
      rw [hp] at h
      cases h
      exact DateTime.year_of_parse? hp
  | _ => cases h

omit [Defaults R U] in
theorem near_of_cast_option {v : Value R} {o : Option DateTime}
    (h : (MemberType.option (@MemberType.dateTime R U)).cast v = .ok o) : ∀ t ∈ o, Near t := by
  intro t ht
  cases v with
  | undefined =>
    cases h
    cases ht
  | string s =>
    change some <$> (@MemberType.dateTime R U).cast (.string s) = .ok o at h
    cases hc : (@MemberType.dateTime R U).cast (.string s) with
    | error e => rw [hc] at h; cases h
    | ok t' =>
      rw [hc] at h
      cases h
      cases ht
      exact near_of_cast hc
  | _ => cases h

/-- What a change puts into a field was cast from a value. -/
theorem exists_cast_of_fromDict {d : Dict R} {s u : SampleState R U}
    (h : schema.fromDict d s = (.ok (), u)) (i : Fin schema.fields.length) :
    ∃ v, MemberTypes.cast (FieldType schema.fields i) v = .ok (u.get i) := by
  obtain ⟨m, hm⟩ := selected i
  have hget := Schema.getAs_of_selected onlyFields h hm
  unfold Dict.getAs at hget
  split at hget
  · cases hget
  · rename_i v _
    cases hc : MemberTypes.cast (FieldType schema.fields i) v with
    | error e => rw [hc] at hget; cases hget
    | ok x => rw [hc] at hget; exact ⟨v, hc.trans (congrArg Except.ok (Except.ok.inj hget))⟩

/-- Every date that a record comes to hold lies in a plain year, or next to these. -/
theorem near_of_reached {s : SampleState R U} (h : schema.Reached start s) :
    ∀ t ∈ dates s, Near t := by
  intro t ht
  cases h with
  | start =>
    obtain rfl := List.mem_singleton.mp ht
    have hepoch : Near .epoch := ⟨by decide, by decide⟩
    exact hepoch
  | change _ hd =>
    rcases List.mem_cons.mp ht with rfl | ht
    · obtain ⟨v, hv⟩ := exists_cast_of_fromDict hd when_
      exact near_of_cast hv
    · obtain ⟨v, hv⟩ := exists_cast_of_fromDict hd ended
      exact near_of_cast_option hv t (Option.mem_toList.mp ht)

/-- **A date that was read comes back exactly if its year is plain.**  A text that casts to a date
gives one in a plain year or next to these, and the date is what its value casts to exactly if the
year is plain.  So a record that successful changes led to can be changed from its own dictionary,
and stays as it is, exactly if its dates have plain years; here its URLs are taken to be read back
from their texts. -/
theorem comes_back_of_reached (text : String) (t : DateTime) (s : SampleState R U) :
    ((@MemberType.dateTime R U).cast (.string text) = .ok t → Near t ∧
      ((@MemberType.dateTime R U).cast ((@MemberType.dateTime R U).toValue t) = .ok t ↔
        t.HasPlainYear)) ∧
    (schema.Reached start s → (∀ t ∈ dates s, Near t) ∧
      ((∀ u ∈ urls s, U.parse? (U.text u) = some u) →
        (schema.fromDict (schema.toDict s) s = (.ok (), s) ↔ ∀ t ∈ dates s, t.HasPlainYear))) :=
  ⟨fun h => ⟨near_of_cast h, MemberType.survives_dateTime_iff⟩,
    fun h => ⟨near_of_reached h, comes_back_iff s⟩⟩

/-! ## Samples -/

/-- A dictionary with a text for the date, and otherwise nothing but what has to be there. -/
def given (text : String) : Dict types :=
  .ofList [("when", .string text), ("link", .string "http://localhost/"), ("parent", .undefined),
    ("ended", .undefined), ("home", .undefined)]

/-- A record that was changed from a dictionary with this text. -/
def changed (text : String) : SampleState types Catalogue.urls :=
  (schema.fromDict (given text) start).2

/-- A leap second of a zone behind universal time, at the end of a year. -/
def leapText : String := "1998-12-31T23:29:60.25-00:30"

/-- The first hour of the first year, in a zone ahead of universal time. -/
def earlyText : String := "0000-01-01T00:00:00+01:00"

/-- The date of the record with the leap second. -/
def leapDate : DateTime := (changed leapText).get when_

/-- The dates of the sample. -/
abbrev date : MemberType types Catalogue.urls := .dateTime

/-- The leap second comes back as the last of its universal year. -/
theorem comes_back_leap :
    date.cast (.string leapText) = .ok leapDate ∧ leapDate.HasPlainYear ∧
    date.cast (date.toValue leapDate) = .ok leapDate ∧
    schema.Reached start (changed leapText) ∧
    (∀ u ∈ urls (changed leapText),
      Catalogue.urls.parse? (Catalogue.urls.text u) = some u) ∧
    (∀ t ∈ dates (changed leapText), t.HasPlainYear) ∧
    schema.fromDict (schema.toDict (changed leapText)) (changed leapText) =
      (.ok (), changed leapText) := by
  have hc : date.cast (.string leapText) = .ok leapDate := by decide +kernel
  have hr : schema.Reached start (changed leapText) :=
    .change .start (Prod.ext (by decide +kernel : (schema.fromDict (given leapText) _).1 = _) rfl)
  have hu : ∀ u ∈ urls (changed leapText),
      Catalogue.urls.parse? (Catalogue.urls.text u) = some u := by decide +kernel
  have ht : ∀ t ∈ dates (changed leapText), t.HasPlainYear := by decide +kernel
  have hl : leapDate.HasPlainYear := ht _ List.mem_cons_self
  obtain ⟨hdate, hrecord⟩ := comes_back_of_reached leapText leapDate (changed leapText)
  exact ⟨hc, hl, (hdate hc).2.mpr hl, hr, hu, ht, ((hrecord hr).2 hu).mpr ht⟩

/-- The early hour is accepted, as an hour of the year before, and its timestamp is malformed: what
was read cannot be read again, and the record that holds it cannot be changed from its own
dictionary. -/
theorem early_hour_is_lost :
    ∃ t, date.cast (.string earlyText) = .ok t ∧
      date.cast (date.toValue t) = .error ⟨"DateTime<Utc>", .malformed .timestamp⟩ ∧
      schema.Reached start (changed earlyText) ∧
      (schema.fromDict (schema.toDict (changed earlyText)) (changed earlyText)).1 =
        .error (.typeMismatch "when" ⟨"DateTime<Utc>", .malformed .timestamp⟩) := by
  refine ⟨(changed earlyText).get when_,
    by decide +kernel, by decide +kernel, ?_, by decide +kernel⟩
  exact .change .start
    (Prod.ext (by decide +kernel : (schema.fromDict (given earlyText) _).1 = _) rfl)

end Catalogue.Dated

end KeyedRecord
