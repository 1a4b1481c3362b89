import Abacus.Datum.Key
import Abacus.Yaml.Fault

/-!
# Readers of Documents

What the settings of a file need of whatever reads documents. A reader works in
two stages. The first one makes a document of a text, and a text of which it
makes none is malformed. The second one finds the value of a document, which can
fail also where nothing is wrong with the form: a value can be none, or not fit
its kind, or be nested deeper than the reader can go.

Nothing else is known of a reader, except that it makes one entry of the entries
of a mapping under the same key.

## Main definitions

* `Reader`: The two stages of a reader.
* `Reader.read`: The value of a text.
* `Reader.Malformed`: The texts that are no documents.

## Theorems

* `Reader.differentKeys_of_read`: The keys of a mapping that is read differ.
* `Reader.not_malformed_of_read`: A text with a value is a document.
-/

namespace Abacus

namespace Yaml

/-- The two stages of a reader: from a text to a document, and from a document to
    its value. -/
structure Reader where
  Document : Type
  compose : List Char → Except Fault Document
  value : Document → Except Fault Datum
  /-- The keys of a mapping are different. -/
  differentKeys : ∀ d m, value d = .ok (.map m) → Scalar.DifferentKeys (m.map (·.1))

namespace Reader

/-- The value of a text, through its document. -/
def read (reader : Reader) (text : List Char) : Except Fault Datum :=
  match reader.compose text with
  | .ok d => reader.value d
  | .error fault => .error fault

/-- A text that is no document. -/
def Malformed (reader : Reader) (text : List Char) : Prop :=
  ∃ fault, reader.compose text = .error fault

theorem differentKeys_of_read (reader : Reader) {text : List Char} {m : Mapping}
    (h : reader.read text = .ok (.map m)) : Scalar.DifferentKeys (m.map (·.1)) := by
  unfold read at h
  split at h
  · next d _ => exact reader.differentKeys d m h
  · cases h

theorem not_malformed_of_read {reader : Reader} {text : List Char} {d : Datum}
    (h : reader.read text = .ok d) : ¬ reader.Malformed text := by
  rintro ⟨fault, hcompose⟩
  rw [read, hcompose] at h
  cases h

end Reader

end Yaml

end Abacus
