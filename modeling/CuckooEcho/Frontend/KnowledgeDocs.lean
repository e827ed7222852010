import CuckooEcho.Frontend.FieldMapper

namespace CuckooEcho.Frontend.KnowledgeDocs
open Lib FieldMapper

/-! ## Knowledge documents, from the admin service to the store -/

/-- A row of `knowledge_docs` as it is written into a response; the id is the text of a UUID, times are ISO texts. -/
structure DocRow where
  id : String
  filename : Option String
  status : String
  chunkCount : Option Int
  errorMsg : Option String
  createdAt : Option String
  updatedAt : Option String
  deriving DecidableEq, Repr

def orNull (text : Option String) : Value := text.elim .null .text

def countOrNull (n : Option Int) : Value := n.elim .null .number

/-- An element of the response of `list_documents`. -/
def listed (row : DocRow) : Object :=
  ⟨[("doc_id", .text row.id), ("filename", orNull row.filename), ("status", .text row.status),
      ("chunk_count", countOrNull row.chunkCount), ("error_msg", orNull row.errorMsg),
      ("created_at", orNull row.createdAt), ("updated_at", orNull row.updatedAt)], by simp⟩

/-- The response of `get_document_progress`, which returns the id that it was called with. -/
def progress (docId : String) (row : DocRow) : Object :=
  ⟨[("doc_id", .text docId), ("status", .text row.status), ("chunk_count", countOrNull row.chunkCount),
      ("error_msg", orNull row.errorMsg)], by simp⟩

def docsPath : String := "/admin/v1/knowledge/docs"

section
variable (camelCase : String → String) (overview missedQueries : Object → Object)

/-- The documents that `fetchDocuments` puts into the store. -/
def fetchDocuments (rows : List DocRow) : List Object :=
  match transformResponse camelCase overview missedQueries (.array (rows.map listed)) docsPath with
  | .array documents => documents
  | .object document => [document]

/-- A missing id is `undefined`, which equals itself. -/
def deleteDocument (id : Option Value) (documents : List Object) : List Object :=
  documents.filter fun d => d.get "id" ≠ id

end

/-! ### The rules of the two endpoints -/

def below : List Char := "/admin/v1/knowledge/docs/".toList

def docEndpoint (docId : String) : String := docsPath ++ "/" ++ docId

theorem pathOf_docEndpoint (docId : String) : pathOf (docEndpoint docId) = below ++ docId.toList.takeWhile (· ≠ '?') := by
  have free : ∀ c ∈ below, decide (c ≠ '?') := List.all_eq_true.mp rfl
  have whole : (docsPath ++ "/").toList = below := by decide
  rw [pathOf, docEndpoint, String.toList_append, whole, List.takeWhile_append_of_pos free]

theorem wildcard_docEndpoint (docId : String) :
    wildcard (pathOf (docEndpoint docId)) "/admin/v1/knowledge/docs/*".toList := by
  have star : ['/', '*'].isSuffixOf "/admin/v1/knowledge/docs/*".toList := by decide
  have front : "/admin/v1/knowledge/docs/*".toList.dropLast = below := by decide
  rw [wildcard, star, front, pathOf_docEndpoint, Bool.true_and, List.isPrefixOf_iff_prefix]
  exact List.prefix_append below _

theorem others_unmatched (docId : String) : ∀ pattern ∈ ["/admin/v1/metrics/overview", "/admin/v1/metrics/missed-queries",
    "/admin/v1/auth/login"], ¬ Matches (docEndpoint docId) pattern := by
  have front : below <+: pathOf (docEndpoint docId) := pathOf_docEndpoint docId ▸ List.prefix_append below _
  intro pattern member
  apply not_matches_of_front front
  · revert pattern
    decide
  · revert pattern
    decide

variable {camelCase : String → String} {overview missedQueries : Object → Object}

theorem rules_docEndpoint (docId : String) :
    findMatchingRules (docEndpoint docId) EXPLICIT_BACKEND_TO_FRONTEND = some [("doc_id", "id")] := by
  apply findMatchingRules_eq_some
  · intro rule member matched
    simp only [EXPLICIT_BACKEND_TO_FRONTEND, List.mem_cons, List.not_mem_nil, or_false] at member
    rcases member with rfl | rfl | rfl | rfl
    · rfl
    · exact absurd matched (others_unmatched docId _ (by simp))
    · exact absurd matched (others_unmatched docId _ (by simp))
    · exact absurd matched (others_unmatched docId _ (by simp))
  · exact ⟨_, List.mem_cons_self, wildcard_docEndpoint docId⟩

theorem adapter_docEndpoint (docId : String) :
    findMatchingRules (docEndpoint docId) (STRUCTURE_ADAPTERS overview missedQueries) = some docsAdapter := by
  apply findMatchingRules_eq_some
  · intro rule member matched
    simp only [STRUCTURE_ADAPTERS, adaptersFor, List.mem_cons, List.not_mem_nil, or_false] at member
    rcases member with rfl | rfl | rfl
    · exact absurd matched (others_unmatched docId _ (by simp))
    · exact absurd matched (others_unmatched docId _ (by simp))
    · rfl
  · exact ⟨_, List.mem_cons_of_mem _ (List.mem_cons_of_mem _ List.mem_cons_self), wildcard_docEndpoint docId⟩

theorem docsPath_unmatched : ∀ pattern ∈ ["/admin/v1/knowledge/docs/*", "/admin/v1/metrics/overview",
    "/admin/v1/metrics/missed-queries", "/admin/v1/auth/login"], ¬ Matches docsPath pattern := by
  unfold Matches
  decide +kernel

/-- The list of the documents is not below itself: no rule and no adapter is for it. -/
theorem transformObject_docsPath (data : Object) :
    transformObject camelCase overview missedQueries data docsPath = toCamelCase camelCase data :=
  transformWith_of_unmatched data docsPath_unmatched

/-! ### The ids of the documents -/

theorem get_toCamelCase_listed (converts : ConvertsSnake camelCase) (row : DocRow) :
    (toCamelCase camelCase (listed row)).get "id" = none := by
  have camel (key name : String) (snake : isSnake key) (same : ofSnake key = name) : camelCase key = name :=
    (converts key snake).trans same
  simp [toCamelCase, listed, Dict.setAll, camel "doc_id" "docId" (by decide) (by decide),
    camel "filename" "filename" (by decide) (by decide), camel "status" "status" (by decide) (by decide),
    camel "chunk_count" "chunkCount" (by decide) (by decide), camel "error_msg" "errorMsg" (by decide) (by decide),
    camel "created_at" "createdAt" (by decide) (by decide), camel "updated_at" "updatedAt" (by decide) (by decide)]

/-- The response of `get_document_progress` with its id renamed. -/
def renamedProgress (docId : String) (row : DocRow) : Object :=
  ⟨[("id", .text docId), ("status", .text row.status), ("chunk_count", countOrNull row.chunkCount),
      ("error_msg", orNull row.errorMsg)], by simp⟩

theorem applyExplicitRenames_progress (docId : String) (row : DocRow) :
    applyExplicitRenames (progress docId row) [("doc_id", "id")] = renamedProgress docId row := by
  simp [applyExplicitRenames, progress, renamedProgress, Dict.setAll, Dict.set, Dict.keys, Dict.empty, List.lookup_cons]

theorem docsAdapter_of_id {d : Object} {id : Value} (present : d.get "id" = some id) : docsAdapter d = d := by
  rw [docsAdapter, present]
  cases d.get "docId" with
  | none => rfl
  | some docId => rfl

theorem get_transformObject_progress (converts : ConvertsSnake camelCase) (docId : String) (row : DocRow) :
    (transformObject camelCase overview missedQueries (progress docId row) (docEndpoint docId)).get "id" =
      some (.text docId) := by
  have camel (key name : String) (snake : isSnake key) (same : ofSnake key = name) : camelCase key = name :=
    (converts key snake).trans same
  have kept : (toCamelCase camelCase (renamedProgress docId row)).get "id" = some (.text docId) := by
    simp [toCamelCase, renamedProgress, Dict.setAll, camel "id" "id" (by decide) (by decide),
      camel "status" "status" (by decide) (by decide), camel "chunk_count" "chunkCount" (by decide) (by decide),
      camel "error_msg" "errorMsg" (by decide) (by decide)]
  rw [transformObject, transformWith, rules_docEndpoint, adapter_docEndpoint]
  simp only [applyExplicitRenames_progress, docsAdapter_of_id kept]
  exact kept

/-! ### Whether documents keep their ids -/

inductive DocsResponse
  | list (rows : List DocRow)
  | progress (docId : String) (row : DocRow)

def DocsResponse.ids : DocsResponse → List String
  | .list rows => rows.map (·.id)
  | .progress docId _ => [docId]

variable (camelCase overview missedQueries)

def DocsResponse.documents : DocsResponse → List Object
  | .list rows => fetchDocuments camelCase overview missedQueries rows
  | .progress docId row =>
      [transformObject camelCase overview missedQueries (KnowledgeDocs.progress docId row) (docEndpoint docId)]

/-- The documents have the ids of the service, and deleting one by its id removes that one only. -/
structure KeepsIdentity (response : DocsResponse) : Prop where
  ids : (response.documents camelCase overview missedQueries).map (·.get "id") =
    response.ids.map fun id => some (.text id)
  removesChosen : ∀ chosen ∈ response.documents camelCase overview missedQueries,
    ∀ other ∈ response.documents camelCase overview missedQueries,
      other ∈ deleteDocument (chosen.get "id") (response.documents camelCase overview missedQueries) ↔ other ≠ chosen

def HasRules : DocsResponse → Prop
  | .list rows => rows = []
  | .progress _ _ => True

variable {camelCase}

theorem fetchDocuments_eq (rows : List DocRow) :
    fetchDocuments camelCase overview missedQueries rows = rows.map fun row => toCamelCase camelCase (listed row) := by
  simp [fetchDocuments, transformResponse, transformObject_docsPath]

/-- The elements of a list keep no id, the document of the progress endpoint does. -/
theorem keepsIdentity_iff (converts : ConvertsSnake camelCase) (response : DocsResponse) :
    KeepsIdentity camelCase overview missedQueries response ↔ HasRules response := by
  cases response with
  | list rows =>
      constructor
      · intro keeps
        cases rows with
        | nil => rfl
        | cons row rows =>
            have ids := keeps.ids
            simp [DocsResponse.documents, fetchDocuments_eq, DocsResponse.ids, get_toCamelCase_listed converts] at ids
      · rintro rfl
        exact ⟨rfl, fun chosen member => absurd member List.not_mem_nil⟩
  | progress docId row =>
      refine iff_of_true ⟨?_, ?_⟩ trivial
      · rw [DocsResponse.documents, List.map_singleton, get_transformObject_progress converts]
        rfl
      · intro chosen first other second
        obtain rfl := List.mem_singleton.mp first
        obtain rfl := List.mem_singleton.mp second
        simp [deleteDocument]

def guide : DocRow where
  id := "1b4e28ba-2fa1-11d2-883f-0016d3cca427"
  filename := some "guide.pdf"
  status := "completed"
  chunkCount := some 5
  errorMsg := none
  createdAt := some "2025-01-01T00:00:00"
  updatedAt := some "2025-01-01T00:00:05"

theorem keepsIdentity_iff_guide :
    KeepsIdentity ofSnake id id (.progress guide.id guide) ↔ HasRules (.progress guide.id guide) :=
  keepsIdentity_iff id id (fun _ _ => rfl) (.progress guide.id guide)

theorem listed_without_id :
    ¬ ∀ (camelCase : String → String) (overview missedQueries : Object → Object) (response : DocsResponse),
      ConvertsSnake camelCase → KeepsIdentity camelCase overview missedQueries response := by
  intro claim
  have keeps := claim ofSnake id id (.list [guide]) fun _ _ => rfl
  exact absurd keeps.ids (by decide +kernel)

end CuckooEcho.Frontend.KnowledgeDocs
