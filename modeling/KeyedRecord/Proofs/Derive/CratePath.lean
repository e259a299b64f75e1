import KeyedRecord.Derive.Declaration
import KeyedRecord.Proofs.Derive.HelperAttributes
import KeyedRecord.Proofs.Source.SealedExpressions

/-!
# The path of the library

The path under which generated code finds the library is read from an attribute of the type, or is
the default.  In either case it is a path that was read, and so it can stand anywhere in a
statement.

Principal result: `isCratePath_of_ofItem`.
-/

set_option autoImplicit false

namespace KeyedRecord.Derive

open Source

/-- The phrase was read as a path. -/
def IsCratePath (crate : Phrase) : Prop := ∃ ts r, readPath ts = .ok (crate, r)

theorem IsCratePath.sealed {crate : Phrase} (h : IsCratePath crate) : crate.Sealed := by
  obtain ⟨ts, r, h⟩ := h
  obtain ⟨q, s, hq, h⟩ := Reader.bind_eq_ok h
  cases h
  exact Reader.triple_iff.mp (Grammar.path_spec (Nesting.sealed_levels _) false) _ _ _ hq

theorem isCratePath_defaultCrate : IsCratePath defaultCrate :=
  ⟨[⟨.punct ':' true, ⟨.start, .start⟩⟩, ⟨.punct ':' false, ⟨.start, .start⟩⟩,
    ⟨.ident "objdict", ⟨.start, .start⟩⟩], [], by decide +kernel⟩

/-- **The path that generated code uses was read as one**, or is the default. -/
theorem isCratePath_of_entries {attrs : List Attribute} {es : List ContainerEntry}
    (h : allEntries containerEntry attrs = .ok es) :
    IsCratePath ((ContainerAttributes.ofEntries es).crate.getD defaultCrate) := by
  cases hc : (ContainerAttributes.ofEntries es).crate with
  | none => exact isCratePath_defaultCrate
  | some c =>
    obtain ⟨e, he, hec⟩ := List.mem_filterMap.mp (List.mem_of_getLast? hc)
    obtain ⟨us, hw⟩ := written_of_allEntries containerEntry_reads h e he
    split at hec <;> cases hec
    obtain ⟨s, -, hread⟩ := hw
    obtain ⟨ts, -, hpath, -⟩ := read_eq_ok_iff.mp hread
    exact ⟨ts, [], hpath⟩

theorem isCratePath_of_ofItem {item : Item} {d : TypeDecl} (h : TypeDecl.ofItem item = .ok d) :
    IsCratePath d.crate := by
  unfold TypeDecl.ofItem ContainerAttributes.ofAttributes at h
  cases he : allEntries containerEntry item.attributes with
  | error r => rw [he] at h; cases h
  | ok entries =>
    cases hf : fieldMembers 0 (TypeDecl.shape item.data).2 with
    | error r => simp only [he, hf, bind, Except.bind, pure, Except.pure] at h; cases h
    | ok fieldTable =>
      simp only [he, hf, bind, Except.bind, pure, Except.pure] at h
      split at h <;> cases h
      exact isCratePath_of_entries he

end KeyedRecord.Derive
