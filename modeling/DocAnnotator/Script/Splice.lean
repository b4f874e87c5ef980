import DocAnnotator.Error
import DocAnnotator.Text.Raw

/-! ## Splicing

    Insertions name byte offsets of the source as it stands before any of them is made. They are
    made from the highest offset down, so that an insertion moves none of those still to come. A text
    with half of a surrogate pair has no bytes, and cannot be inserted.
-/

namespace DocAnnotator

/-- A raw text to insert at a byte offset. -/
structure Insertion extends RawText where
  offset : Nat

namespace Insertion

/-- Bytes with the text inserted; an offset past the end appends. -/
def apply (source : Bytes) (insertion : Insertion) : Bytes :=
  source.take insertion.offset ++ Utf8.encode insertion.text ++ source.drop insertion.offset

/-- Puts an insertion into a list in decreasing order of offsets, before those of the same offset. -/
def place (insertion : Insertion) : List Insertion → List Insertion
  | [] => [insertion]
  | other :: rest =>
    if other.offset ≤ insertion.offset then insertion :: other :: rest
    else other :: place insertion rest

/-- The insertions from the highest offset down; those of one offset keep their order. -/
def descending (insertions : List Insertion) : List Insertion := insertions.foldr place []

/-- The bytes of a source with all insertions made. -/
def applyAll (source : Bytes) (insertions : List Insertion) : Bytes :=
  (descending insertions).foldl apply source

/-- The text of a source with all insertions made. It fails where one of them has no bytes, and
    where the bytes of all are not UTF-8. -/
def splice (source : Bytes) (insertions : List Insertion) : Except Error Text :=
  if insertions.any (·.torn) then .error .unencodableText
  else (Utf8.decode (applyAll source insertions)).mapError .malformedText

end Insertion

end DocAnnotator
