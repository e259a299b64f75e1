/-!
# What URLs are

URLs come from outside: a text is parsed as a URL or is none, and a URL has a text.  What the
library relies on is that parsing the text of a parsed URL gives this URL.

The type is `Url`, with `Url::parse` and `as_str`; `Rereads` is the one law assumed of it.
-/

set_option autoImplicit false

namespace KeyedRecord

/-- A kind of URLs, with the way from texts and back. -/
structure UrlFormat where
  Url : Type
  parse? : String → Option Url
  text : Url → String

namespace UrlFormat

/-- Parsing the text of a parsed URL gives that URL. -/
def Rereads (U : UrlFormat) : Prop :=
  ∀ s u, U.parse? s = some u → U.parse? (U.text u) = some u

section

variable (U : UrlFormat) [DecidableEq U.Url]

/-- The URL that a text is parsed as, if its own text is parsed as the same URL. -/
def parseSettled? (s : String) : Option U.Url :=
  (U.parse? s).filter fun u => decide (U.parse? (U.text u) = some u)

/-- The format with only those URLs that are parsed again from their texts. -/
def settled : UrlFormat where
  Url := U.Url
  parse? := U.parseSettled?
  text := U.text

instance : DecidableEq U.settled.Url := inferInstanceAs (DecidableEq U.Url)

theorem rereads_settled : U.settled.Rereads := by
  intro s (u : U.Url) (h : U.parseSettled? s = some u)
  have hu : U.parse? (U.text u) = some u := of_decide_eq_true (Option.filter_eq_some_iff.mp h).2
  exact Option.filter_eq_some_iff.mpr ⟨hu, decide_eq_true hu⟩

end

end UrlFormat

end KeyedRecord
