import TemplatedForms.Proofs.Reference.Occurrences
import TemplatedForms.Proofs.Resolution.Replacement
import TemplatedForms.Resolution

namespace TemplatedForms

namespace FieldReference

variable (values : Entries Value)

def replacement (r : FieldReference) : String :=
  if r.inPath then fieldText values r.className else quoteLiteral (fieldText values r.className)

def edit (r : FieldReference) : Span × String := (r.span, r.replacement values)

end FieldReference

variable (values : Entries Value)

theorem replaced_parts (write : String → String) (inPath : Bool) (offset : Nat) (parts : List Part) :
    Replaced offset (String.join (parts.map Part.source))
      ((partReferencesFrom inPath offset parts).map fun r ↦ (r.span, write (fieldText values r.className)))
      (String.join (parts.map (Part.filled write values))) := by
  induction parts generalizing offset with
  | nil => exact .rest offset _
  | cons p parts ih =>
    simp only [List.map_cons, String.join_cons]
    cases p with
    | text s => exact .keep s (ih _)
    | field className => exact (Replaced.one offset _ _).append (ih _)

theorem replaced_text (write : String → String) {inPath : Bool}
    (h : ∀ r : FieldReference, r.inPath = inPath → r.replacement values = write (fieldText values r.className))
    (offset : Nat) (text : String) :
    Replaced offset text ((partReferencesFrom inPath offset (Part.ofText text)).map (FieldReference.edit values))
      (Part.fill write values text) := by
  have hparts := replaced_parts values write inPath offset (Part.ofText text)
  rw [Part.source_ofText] at hparts
  have hedits : (partReferencesFrom inPath offset (Part.ofText text)).map (FieldReference.edit values) =
      (partReferencesFrom inPath offset (Part.ofText text)).map
        fun r ↦ (r.span, write (fieldText values r.className)) := by
    apply List.map_congr_left
    intro r hr
    rw [FieldReference.edit, h r ((Part.mem_ofText _ _ _ _).mp hr).2]
  rw [hedits]
  exact hparts

namespace DocumentReference

variable (store : Store)

/-- Where the lookup of a reference fails, and how. A path whose extension is not supported is no failure. -/
inductive Fails (r : DocumentReference) : StoreError → Prop
  | folder {e : StoreError} : r.isFolder = true → store.folder r.path = .error e → Fails r e
  | children {f : Folder} {e : StoreError} : r.isFolder = true →
      store.folder r.path = .ok f → store.children f = .error e → Fails r e
  | document {e : StoreError} : r.isFolder = false → store.document r.path = .error e →
      (∀ path extension, e ≠ .unsupportedFormat path extension) → Fails r e
  | data {d : Document} {e : StoreError} : r.isFolder = false →
      store.document r.path = .ok d → store.structuredData d = .error e → Fails r e

/-- What a store makes of a reference: the text that replaces it, if any does, and the notice of a failure.
A path whose extension is not supported is replaced by nothing; after any other failure the reference
stays. -/
inductive Answered (r : DocumentReference) : (replacement : Option String) → Option Notice → Prop
  | folder {f : Folder} {children : List Child} : r.isFolder = true →
      store.folder r.path = .ok f → store.children f = .ok children →
      Answered r (some (Json.array (children.map fun c ↦ .string c.displayName)).compact) none
  | document {d : Document} {data : Entries Json} : r.isFolder = false →
      store.document r.path = .ok d → store.structuredData d = .ok data →
      Answered r (some (Json.object data).compact) none
  | unsupported {path extension : String} : r.isFolder = false →
      store.document r.path = .error (.unsupportedFormat path extension) →
      Answered r (some "") (some (.unsupportedExtension path extension))
  | noFolder {path : String} :
      Fails store r (.folderNotFound path) → Answered r none (some (.folderNotFound path))
  | noDocument {path : String} :
      Fails store r (.documentNotFound path) → Answered r none (some (.documentNotFound path))
  | unsupportedInside {path extension : String} :
      Fails store r (.unsupportedFormat path extension) →
      Answered r none (some (.unsupportedExtension path extension))
  | invalid {path reason : String} : Fails store r (.invalidData path reason) → Answered r none none
  | unreadable : Fails store r .unreadable → Answered r none none

theorem Fails.answered {store : Store} {r : DocumentReference} {e : StoreError} (h : r.Fails store e) :
    r.Answered store none e.notice? := by
  cases e with
  | documentNotFound path => exact .noDocument h
  | folderNotFound path => exact .noFolder h
  | unsupportedFormat path extension => exact .unsupportedInside h
  | invalidData path reason => exact .invalid h
  | unreadable => exact .unreadable h

def replacement? (r : DocumentReference) : Option String := (store.lookup r.path).1

def notice? (r : DocumentReference) : Option Notice := (store.lookup r.path).2.bind StoreError.notice?

def edit? (r : DocumentReference) : Option (Span × String) := (r.replacement? store).map fun text ↦ (r.span, text)

theorem answered (r : DocumentReference) : r.Answered store (r.replacement? store) (r.notice? store) := by
  rw [replacement?, notice?, Store.lookup]
  split
  · next hfolder =>
    cases hf : store.folder r.path with
    | error e =>
      have htext : store.folderText r.path = .error e := by
        rw [Store.folderText, hf]
        rfl
      rw [htext]
      exact (Fails.folder hfolder hf).answered
    | ok f =>
      cases hc : store.children f with
      | error e =>
        have htext : store.folderText r.path = .error e := by
          rw [Store.folderText, hf]
          simp only [bind, Except.bind, hc]
        rw [htext]
        exact (Fails.children hfolder hf hc).answered
      | ok children =>
        have htext : store.folderText r.path =
            .ok (Json.array (children.map fun c ↦ .string c.displayName)).compact := by
          rw [Store.folderText, hf]
          simp only [bind, Except.bind, hc]
          rfl
        rw [htext]
        exact .folder hfolder hf hc
  · next hfolder =>
    have hfolder : r.isFolder = false := by simpa [isFolder] using hfolder
    split
    · next path extension hd => exact .unsupported hfolder hd
    · next e hne hd => exact (Fails.document hfolder hd hne).answered
    · next d hd =>
      split
      · next data hdata => exact .document hfolder hd hdata
      · next e hdata => exact (Fails.data hfolder hd hdata).answered

end DocumentReference

theorem replaced_documents (store : Store) (offset : Nat) (segments : List Segment) :
    Replaced offset (Segment.source segments)
      ((documentReferencesFrom offset segments).filterMap (DocumentReference.edit? store))
      (Segment.resolveAll store segments).value := by
  induction segments generalizing offset with
  | nil => exact .rest offset _
  | cons s segments ih =>
    rw [Segment.source_cons]
    cases s with
    | literal text => exact .keep text (ih _)
    | document path =>
      rw [documentReferencesFrom, List.filterMap_cons, DocumentReference.edit?,
        DocumentReference.replacement?]
      simp only [Segment.resolveAll, Segment.resolve]
      cases hlookup : (store.lookup path).1 with
      | none => exact .keep _ (ih _)
      | some text => exact (Replaced.one offset _ text).append (ih _)

theorem notices_resolveAll (store : Store) (offset : Nat) (segments : List Segment) :
    (Segment.resolveAll store segments).notices =
      (documentReferencesFrom offset segments).filterMap (DocumentReference.notice? store) := by
  induction segments generalizing offset with
  | nil => rfl
  | cons s segments ih =>
    cases s with
    | literal text => exact ih _
    | document path =>
      rw [documentReferencesFrom, List.filterMap_cons, ← ih, DocumentReference.notice?]
      simp only [Segment.resolveAll, Segment.resolve]
      cases hlookup : (store.lookup path).2.bind StoreError.notice? with
      | none => rfl
      | some notice => rfl

/-- The references to documents of a body are the stretches from a marker to its partner. With the data that
a store has for them, the body is the same but for the references that the store has an answer to, and each
failed reference raises its own notice, in order. -/
theorem documents_are_replaced_in_place (store : Store) (body : String) :
    ((documentReferences body).map (·.span) = (Segment.markerPairs body).map Segment.between ∧
      ∀ r ∈ documentReferences body, r.StandsIn 0 body) ∧
    (∀ r ∈ documentReferences body, r.Answered store (r.replacement? store) (r.notice? store)) ∧
    (∀ result, Replaced 0 body ((documentReferences body).filterMap (DocumentReference.edit? store)) result ↔
      result = (resolveDocuments store body).value) ∧
    (resolveDocuments store body).notices =
      (documentReferences body).filterMap (DocumentReference.notice? store) := by
  obtain ⟨-, hsource⟩ := Segment.wellCut_ofBody body
  refine ⟨documentReferences_between body, ?_, ?_, ?_⟩
  · intro r _
    exact r.answered store
  · intro result
    have hreplaced := replaced_documents store 0 (Segment.ofBody body)
    rw [hsource] at hreplaced
    exact hreplaced.iff_eq result
  · exact notices_resolveAll store 0 (Segment.ofBody body)

end TemplatedForms
