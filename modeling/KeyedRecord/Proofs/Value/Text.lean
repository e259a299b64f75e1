import KeyedRecord.Catalogue.Types
import KeyedRecord.Proofs.Calendar.UnixTime
import KeyedRecord.Proofs.Uuid
import KeyedRecord.Proofs.Value.Survival

/-!
# Things that travel as text

Which identifiers, points in time and URLs survive the way through a value, bare or in an option.
Points in time do exactly if their year is plain, and these are the points of all seconds of the
plain years, leap seconds included: `cast_toValue_of_plainYear`.
-/

set_option autoImplicit false

namespace KeyedRecord.MemberType

open Calendar (DateTime)

variable {R : Registry} {U : UrlFormat}

theorem survives_uuid (u : Uuid) : (uuid : MemberType R U).Survives u := by
  change orMalformed _ .uuid (Uuid.parse? u.text) = .ok u
  rw [Uuid.parse?_text]
  rfl

/-- The text of a point in time is read, or is malformed. -/
theorem cast_toValue_dateTime (d : DateTime) :
    (@dateTime R U).cast ((@dateTime R U).toValue d) =
      if d.HasPlainYear then .ok d else .error ⟨"DateTime<Utc>", .malformed .timestamp⟩ := by
  change orMalformed (@dateTime R U).name .timestamp (DateTime.parse? d.text) = _
  split
  · rename_i h
    rw [DateTime.parse?_text h]
    rfl
  · rename_i h
    rw [DateTime.parse?_text_eq_none h]
    rfl

theorem survives_dateTime_iff {d : DateTime} : (@dateTime R U).Survives d ↔ d.HasPlainYear := by
  unfold Survives
  rw [cast_toValue_dateTime]
  split <;> simp_all

/-- **Points of plain years are read back from what they are stored as.**  A point of a plain year
is stored as text, with date and time in nineteen characters, a fraction of no digits or three, six
or nine, and universal time behind them; a leap second shows as second sixty.  The cast of the text
is the point. There is such a point for every second of these years and all its nanoseconds, and a
leap second for every second that is the last of a minute; it is the only one with its seconds and
nanoseconds. -/
theorem cast_toValue_of_plainYear (R : Registry) (U : UrlFormat) (d : DateTime) (seconds : Int)
    (nanos : Nat) :
    (d.HasPlainYear → (@dateTime R U).cast ((@dateTime R U).toValue d) = .ok d ∧
      ∃ clock fraction,
        (@dateTime R U).toValue d = .string (String.ofList (clock ++ fraction ++ "+00:00".toList)) ∧
        clock.length = 19 ∧ (clock.drop 17 = ['6', '0'] ↔ d.isLeap = true) ∧
        (fraction = [] ∨ ∃ digits, fraction = '.' :: digits ∧ digits.length ∈ [3, 6, 9])) ∧
    (-62167219200 ≤ seconds → seconds < 253402300800 →
      (nanos < 1000000000 ∨ nanos < 2000000000 ∧ seconds % 60 = 59) →
      ∃ e, DateTime.ofUnix? seconds nanos = some e ∧
        (∀ t : DateTime, t.unixSeconds = seconds ∧ t.unixNanos = nanos ↔ t = e) ∧
        e.HasPlainYear ∧ (@dateTime R U).cast ((@dateTime R U).toValue e) = .ok e) := by
  refine ⟨fun h => ⟨survives_dateTime_iff.mpr h, ?_⟩, fun hfirst hend hn => ?_⟩
  · obtain ⟨clock, fraction, htext, hrest⟩ := DateTime.text_eq_of_plainYear h
    exact ⟨clock, fraction, congrArg Value.string htext, hrest⟩
  · have hlt : nanos < 2 * DateTime.secondNanos := by
      unfold DateTime.secondNanos
      omega
    have hleap : DateTime.secondNanos ≤ nanos → seconds % 60 = 59 := by
      unfold DateTime.secondNanos
      omega
    obtain ⟨e, he⟩ := DateTime.exists_ofUnix? hlt hleap
    have hunix := DateTime.ofUnix?_eq_some_iff.mp he
    have hplain : e.HasPlainYear := DateTime.hasPlainYear_iff.mpr (hunix.1 ▸ ⟨hfirst, hend⟩)
    refine ⟨e, he, fun t => ?_, hplain, survives_dateTime_iff.mpr hplain⟩
    rw [← DateTime.ofUnix?_eq_some_iff, he, Option.some.injEq, eq_comm]

open Catalogue (types urls) in
/-- The middle of a leap second at the end of 1969, with a fraction of three digits. -/
theorem cast_toValue_lateLeapSecond :
    ∃ d : DateTime, DateTime.ofUnix? (-1) 1500000000 = some d ∧ d.HasPlainYear ∧
      (@dateTime types urls).toValue d = .string "1969-12-31T23:59:60.500+00:00" ∧
      (@dateTime types urls).cast ((@dateTime types urls).toValue d) = .ok d := by
  obtain ⟨d, hd, -, hplain, -⟩ := (cast_toValue_of_plainYear types urls .epoch (-1) 1500000000).2
    (by decide) (by decide) (by decide)
  have htext : (DateTime.ofUnix? (-1) 1500000000).map DateTime.text =
      some "1969-12-31T23:59:60.500+00:00" := by rfl
  rw [hd] at htext
  exact ⟨d, hd, hplain, congrArg Value.string (Option.some.inj htext),
    ((cast_toValue_of_plainYear types urls d 0 0).1 hplain).1⟩

theorem survives_url_iff {u : U.Url} : (@url R U).Survives u ↔ U.parse? (U.text u) = some u := by
  change orMalformed _ .url (U.parse? (U.text u)) = .ok u ↔ _
  cases U.parse? (U.text u) <;> simp [orMalformed]

/-! ## Options -/

/-- An option survives exactly if what it holds does, where the type is stored as text. -/
theorem survives_option_iff {t : MemberType R U} (hs : ∀ x, ∃ s, t.toValue x = .string s)
    (o : Option t.Carrier) : t.option.Survives o ↔ ∀ x ∈ o, t.Survives x := by
  cases o with
  | none => simp [survives_none]
  | some x =>
    obtain ⟨s, hx⟩ := hs x
    have hne : t.toValue x ≠ .undefined := by
      rw [hx]
      exact nofun
    rw [survives_some_iff, and_iff_right hne]
    simp

end KeyedRecord.MemberType
