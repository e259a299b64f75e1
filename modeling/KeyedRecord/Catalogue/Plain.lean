import KeyedRecord.Catalogue.Fields

/-!
# Record types of fields

Sample record types whose members are all fields.
-/

set_option autoImplicit false

namespace KeyedRecord.Catalogue

open Record

variable {R : Registry} {U : UrlFormat} [Defaults R U]

/-- Fields by position, of which a few are left out. -/
def gaps : Sample R U :=
  .ofFields
    [⟨"0", .int .i8, ignore published⟩, ⟨"1", .int .i16, published⟩, ⟨"2", .int .i32, hidden⟩,
      ⟨"3", .int .i64, include_ hidden⟩, ⟨"4", .int .u8, ignore (include_ hidden)⟩]
    (by simp)

/-- Types that travel as text. -/
def record : Sample R U :=
  .ofFields
    [⟨"when", .dateTime, published⟩, ⟨"link", .url, published⟩,
      ⟨"parent", .option .uuid, published⟩, ⟨"ended", .option .dateTime, published⟩,
      ⟨"home", .option .url, published⟩]
    (by simp)

end KeyedRecord.Catalogue
