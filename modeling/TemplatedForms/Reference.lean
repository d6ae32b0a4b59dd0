import TemplatedForms.Text.Search

namespace TemplatedForms

/-- A stretch of a text, in bytes. -/
structure Span where
  start : Nat
  stop : Nat
deriving DecidableEq

def Span.length (s : Span) : Nat := s.stop - s.start

inductive Segment
  | literal (text : String)
  | document (path : String)
deriving DecidableEq

namespace Segment

def marker : String := "%%"

def text : Segment → String
  | .literal text => text
  | .document path => marker ++ path ++ marker

/-- Pairs up the markers between the pieces of a body; a last marker without a partner is literal. -/
def ofPieces : List String → List Segment
  | [] => []
  | [p] => [.literal p]
  | [p, q] => [.literal (p ++ marker ++ q)]
  | p :: path :: rest => .literal p :: .document path :: ofPieces rest

def ofBody (body : String) : List Segment :=
  ofPieces ((Text.pieces marker.toList body.toList).map String.ofList)

end Segment

inductive Part
  | text (s : String)
  | field (className : String)
deriving DecidableEq

namespace Part

def mark : String := "$$."

def isClassNameChar (c : Char) : Bool := c.isAlphanum || c == '_' || c == '-'

def source : Part → String
  | .text s => s
  | .field className => mark ++ className

/-- The parts of a text; `before` is the reversed text in front of it that belongs to no reference. -/
def readFrom : Nat → (before : List Char) → List Char → List Part
  | 0, before, cs => [.text (String.ofList (before.reverse ++ cs))]
  | fuel + 1, before, '$' :: '$' :: '.' :: rest =>
    let name := rest.takeWhile isClassNameChar
    if name.isEmpty then readFrom fuel ('.' :: '$' :: '$' :: before) rest
    else
      .text (String.ofList before.reverse) :: .field (String.ofList name) ::
        readFrom fuel [] (rest.dropWhile isClassNameChar)
  | fuel + 1, before, c :: rest => readFrom fuel (c :: before) rest
  | _ + 1, before, [] => [.text (String.ofList before.reverse)]

def ofText (text : String) : List Part := readFrom (text.toList.length + 1) [] text.toList

end Part

structure DocumentReference where
  path : String
  span : Span
deriving DecidableEq

def DocumentReference.isFolder (r : DocumentReference) : Bool := r.path.toList.getLast? == some '/'

structure FieldReference where
  className : String
  span : Span
  inPath : Bool
deriving DecidableEq

def documentReferencesFrom (offset : Nat) : List Segment → List DocumentReference
  | [] => []
  | s :: rest =>
    let stop := offset + s.text.utf8ByteSize
    match s with
    | .literal _ => documentReferencesFrom stop rest
    | .document path => ⟨path, ⟨offset, stop⟩⟩ :: documentReferencesFrom stop rest

def partReferencesFrom (inPath : Bool) (offset : Nat) : List Part → List FieldReference
  | [] => []
  | p :: rest =>
    let stop := offset + p.source.utf8ByteSize
    match p with
    | .text _ => partReferencesFrom inPath stop rest
    | .field className => ⟨className, ⟨offset, stop⟩, inPath⟩ :: partReferencesFrom inPath stop rest

def fieldReferencesFrom (offset : Nat) : List Segment → List FieldReference
  | [] => []
  | s :: rest =>
    (match s with
    | .literal text => partReferencesFrom false offset (Part.ofText text)
    | .document path => partReferencesFrom true (offset + Segment.marker.utf8ByteSize) (Part.ofText path)) ++
      fieldReferencesFrom (offset + s.text.utf8ByteSize) rest

def documentReferences (body : String) : List DocumentReference :=
  documentReferencesFrom 0 (Segment.ofBody body)

def fieldReferences (body : String) : List FieldReference :=
  fieldReferencesFrom 0 (Segment.ofBody body)

end TemplatedForms
