import KeyedRecord.Url.Format
import KeyedRecord.Url.Locator

/-!
# URLs that can be run

A kind of URLs to run conversions with: a URL is the normal text of a locator that some source is
read to, so a relative reference and a text with a fault are not URLs, and two URLs are equal
exactly if they are written alike.  Hosts are those of plain letters.  Nothing is proved of URLs in
general from this reader: results about members of this type are stated for every `UrlFormat`.
-/

set_option autoImplicit false

namespace KeyedRecord

/-- The normal text of a URL. -/
structure Url where
  text : String
  isRead : ∃ source l, Url.Locator.read? source = some l ∧ text = String.ofList l.text
  deriving DecidableEq

namespace Url

/-- The URL that a text stands for. -/
def parse? (s : String) : Option Url :=
  match h : Locator.read? s.toList with
  | some l => some ⟨String.ofList l.text, s.toList, l, h, rfl⟩
  | none => none

/-- The root of the own machine. -/
def ownMachine : Url :=
  ⟨"http://localhost/", "http://localhost/".toList,
    ⟨"http".toList, some ⟨.none, some Host.localHost, none⟩, .rooted [[]], none, none⟩,
    by decide +kernel, by decide +kernel⟩

/-- URLs that are read by this reader. -/
def format : UrlFormat := ⟨Url, parse?, text⟩

instance : DecidableEq format.Url := inferInstanceAs (DecidableEq Url)

end Url

end KeyedRecord
