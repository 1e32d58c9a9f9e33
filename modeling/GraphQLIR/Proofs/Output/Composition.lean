import GraphQLIR.Output.Run
import GraphQLIR.Proofs.Traversal
/-!
# Runs as compositions

A run has a fault of its input just if the schema has it, or else the documents have it. Otherwise
its outcome is that of the backend for exactly the normalized schema, the document and the options.
Documents that are not wanted are not looked at, and templates see the other options only as they
are handed on.
-/

namespace GraphQLIR

/-! ## The backend -/

/-- What a file maker's answer comes to in the end: the files, at once or later, or why there are
none. -/
inductive Delivers (answer : Except String Delivery) : Except String (List OutputFile) → Prop
  | refused {reason : String} (hanswer : answer = .error reason) : Delivers answer (.error reason)
  | immediate {files : List OutputFile} (hanswer : answer = .ok (.immediate files)) :
    Delivers answer (.ok files)
  | deferred {later : Thunk (Except String (List OutputFile))}
    (hanswer : answer = .ok (.deferred later)) : Delivers answer later.get

theorem delivers_iff {answer : Except String Delivery}
    {outcome : Except String (List OutputFile)} :
    Delivers answer outcome ↔ answer >>= Delivery.receive = outcome := by
  constructor
  · rintro (hanswer | hanswer | hanswer) <;> rw [hanswer] <;> rfl
  · rintro rfl
    cases answer with
    | error reason => exact .refused rfl
    | ok delivery =>
      cases delivery with
      | immediate files => exact .immediate rfl
      | deferred later => exact .deferred rfl

namespace Backend

/-- The outcome of the backend for normalized input. -/
def outcome (backend : Backend) (records : SchemaRecords) (document : Document)
    (options : RunOptions) : Except RunFault RunResult :=
  match backend with
  | .custom maker =>
    match maker records document options >>= Delivery.receive with
    | .ok files => .ok (.files files)
    | .error reason => .error (.maker reason)
  | .templates configuration => .ok (.render (configuration.renderInput records document options))

variable {backend : Backend} {records : SchemaRecords} {document : Document}
  {options : RunOptions}

theorem outcome_ne_inputFault (fault : Fault) :
    backend.outcome records document options ≠ .error (.input fault) := by
  cases backend with
  | templates configuration => simp [outcome]
  | custom maker =>
    simp only [outcome]
    cases maker records document options >>= Delivery.receive <;> simp

theorem outcome_eq_files_iff {files : List OutputFile} :
    backend.outcome records document options = .ok (.files files) ↔
      ∃ maker, backend = .custom maker ∧ Delivers (maker records document options) (.ok files) := by
  cases backend with
  | templates configuration => simp [outcome]
  | custom maker =>
    simp only [outcome, delivers_iff, Backend.custom.injEq, exists_eq_left']
    cases maker records document options >>= Delivery.receive <;> simp

theorem outcome_eq_makerFault_iff {reason : String} :
    backend.outcome records document options = .error (.maker reason) ↔
      ∃ maker, backend = .custom maker ∧
        Delivers (maker records document options) (.error reason) := by
  cases backend with
  | templates configuration => simp [outcome]
  | custom maker =>
    simp only [outcome, delivers_iff, Backend.custom.injEq, exists_eq_left']
    cases maker records document options >>= Delivery.receive <;> simp

theorem outcome_eq_render_iff {input : RenderInput} :
    backend.outcome records document options = .ok (.render input) ↔
      ∃ configuration, backend = .templates configuration ∧
        input = configuration.renderInput records document options := by
  cases backend with
  | templates configuration => simp [outcome, eq_comm]
  | custom maker =>
    simp only [outcome]
    cases maker records document options >>= Delivery.receive <;> simp

end Backend

/-! ## The input -/

section

variable [NumberReader]

section

variable (schema : Schema) (documents : List ExecutableDocument) (options : RunOptions)

/-- What a run hands to its backend. The document is empty if documents are not wanted. -/
structure RunInput (records : SchemaRecords) (document : Document) : Prop where
  schema_eq : schema.normalize = .ok records
  document_eq : if options.documents then
    Document.ofDocuments schema.catalog documents = .ok document else document = .empty

/-- What is wrong with the input of a run. A fault of the schema comes before one of the
documents, which count only if they are wanted. -/
inductive InputFault : Fault → Prop
  | schema {fault : Fault} (hschema : schema.normalize = .error fault) : InputFault fault
  | documents {records : SchemaRecords} {fault : Fault}
    (hschema : schema.normalize = .ok records) (hwanted : options.documents = true)
    (hdocuments : Document.ofDocuments schema.catalog documents = .error fault) :
    InputFault fault

end

namespace Backend

variable {backend : Backend} {schema : Schema} {documents : List ExecutableDocument}
  {options : RunOptions} {records : SchemaRecords} {document : Document}

theorem run_of_inputFault {fault : Fault} (h : InputFault schema documents options fault) :
    backend.run schema documents options = .error (.input fault) := by
  unfold run RunOptions.document
  cases h with
  | schema hschema =>
    rw [hschema]
    rfl
  | documents hschema hwanted hdocuments =>
    rw [hschema, if_pos hwanted, hdocuments]
    rfl

theorem run_of_runInput (h : RunInput schema documents options records document) :
    backend.run schema documents options = backend.outcome records document options := by
  have hdocument : options.document schema documents = .ok document := by
    have hinput := h.document_eq
    unfold RunOptions.document
    split at hinput
    · rwa [if_pos ‹_›]
    · rw [if_neg ‹_›, hinput]
  unfold run
  rw [h.schema_eq, hdocument]
  cases backend with
  | templates configuration => rfl
  | custom maker =>
    have hdelivered (delivered : Except String (List OutputFile)) :
        (delivered.mapError .maker >>= fun files => .ok (.files files)) =
          match delivered with
          | .ok files => .ok (RunResult.files files)
          | .error reason => .error (RunFault.maker reason) := by
      cases delivered <;> rfl
    exact hdelivered _

theorem exists_runInput_or_inputFault (schema : Schema) (documents : List ExecutableDocument)
    (options : RunOptions) :
    (∃ records document, RunInput schema documents options records document) ∨
      ∃ fault, InputFault schema documents options fault := by
  cases hschema : schema.normalize with
  | error fault => exact Or.inr ⟨fault, .schema hschema⟩
  | ok records =>
    by_cases hwanted : options.documents = true
    · cases hdocuments : Document.ofDocuments schema.catalog documents with
      | error fault => exact Or.inr ⟨fault, .documents hschema hwanted hdocuments⟩
      | ok document => exact Or.inl ⟨records, document, hschema, by rwa [if_pos hwanted]⟩
    · exact Or.inl ⟨records, .empty, hschema, by rw [if_neg hwanted]⟩

theorem run_eq_inputFault_iff (fault : Fault) :
    backend.run schema documents options = .error (.input fault) ↔
      InputFault schema documents options fault := by
  refine ⟨fun h => ?_, run_of_inputFault⟩
  rcases exists_runInput_or_inputFault schema documents options with
    ⟨records, document, hinput⟩ | ⟨other, hother⟩
  · rw [run_of_runInput hinput] at h
    exact absurd h (outcome_ne_inputFault fault)
  · rw [run_of_inputFault hother] at h
    cases h
    exact hother

/-- Unless it is a fault of the input, the outcome of the run is that of the backend. -/
theorem run_eq_iff {result : Except RunFault RunResult}
    (hresult : ∀ fault, result ≠ .error (.input fault)) :
    backend.run schema documents options = result ↔
      ∃ records document, RunInput schema documents options records document ∧
        backend.outcome records document options = result := by
  constructor
  · intro h
    rcases exists_runInput_or_inputFault schema documents options with
      ⟨records, document, hinput⟩ | ⟨fault, hfault⟩
    · exact ⟨records, document, hinput, (run_of_runInput hinput).symm.trans h⟩
    · exact absurd (h.symm.trans (run_of_inputFault hfault)) (hresult fault)
  · rintro ⟨records, document, hinput, hresult⟩
    exact (run_of_runInput hinput).trans hresult

end Backend

/-! ## The run -/

/-- The result with other options handed on to templates. -/
def RunResult.withOptions (options : RunOptions) : RunResult → RunResult
  | .files made => .files made
  | .render input => .render { input with options := options }

/-- All outcomes of a run, and what they do not depend on. -/
structure Backend.Composes (backend : Backend) (schema : Schema)
    (documents : List ExecutableDocument) (options : RunOptions) : Prop where
  inputFault_iff : ∀ fault, backend.run schema documents options = .error (.input fault) ↔
    InputFault schema documents options fault
  makerFault_iff : ∀ reason, backend.run schema documents options = .error (.maker reason) ↔
    ∃ records document, RunInput schema documents options records document ∧
      ∃ maker, backend = .custom maker ∧ Delivers (maker records document options) (.error reason)
  files_iff : ∀ files, backend.run schema documents options = .ok (.files files) ↔
    ∃ records document, RunInput schema documents options records document ∧
      ∃ maker, backend = .custom maker ∧ Delivers (maker records document options) (.ok files)
  render_iff : ∀ input, backend.run schema documents options = .ok (.render input) ↔
    ∃ records document, RunInput schema documents options records document ∧
      ∃ configuration, backend = .templates configuration ∧ input = {
        schema := records
        documents := if configuration.flattens then .flat document.flatten else .nested document
        scalarNames := configuration.scalarNames
        extra := configuration.extra
        options := options }
  /-- Documents that are not wanted may be any, also refused ones. -/
  documents_skipped : options.documents = false → ∀ others,
    backend.run schema others options = backend.run schema documents options
  /-- Of the options only whether documents are wanted matters to a run with templates. All are
  handed on as they are. -/
  options_handedOn : ∀ configuration, backend = .templates configuration →
    ∀ other : RunOptions, other.documents = options.documents →
      backend.run schema documents other =
        RunResult.withOptions other <$> backend.run schema documents options

namespace Backend

theorem run_templates_withOptions (configuration : Configuration) (schema : Schema)
    (documents : List ExecutableDocument) {options other : RunOptions}
    (hdocuments : other.documents = options.documents) :
    (templates configuration).run schema documents other =
      RunResult.withOptions other <$> (templates configuration).run schema documents options := by
  rcases exists_runInput_or_inputFault schema documents options with
    ⟨records, document, hinput⟩ | ⟨fault, hfault⟩
  · have hother : RunInput schema documents other records document :=
      ⟨hinput.schema_eq, hdocuments ▸ hinput.document_eq⟩
    rw [run_of_runInput hinput, run_of_runInput hother]
    rfl
  · have hother : InputFault schema documents other fault := by
      cases hfault with
      | schema hschema => exact .schema hschema
      | documents hschema hwanted hfault => exact .documents hschema (hdocuments ▸ hwanted) hfault
    rw [run_of_inputFault hfault, run_of_inputFault hother]
    rfl

theorem composes (backend : Backend) (schema : Schema) (documents : List ExecutableDocument)
    (options : RunOptions) : backend.Composes schema documents options where
  inputFault_iff := run_eq_inputFault_iff
  makerFault_iff reason := by
    rw [run_eq_iff (by simp)]
    simp only [outcome_eq_makerFault_iff]
  files_iff files := by
    rw [run_eq_iff (by simp)]
    simp only [outcome_eq_files_iff]
  render_iff input := by
    rw [run_eq_iff (by simp)]
    simp only [outcome_eq_render_iff]
    rfl
  documents_skipped hskipped others := by
    unfold run RunOptions.document
    rw [hskipped]
    rfl
  options_handedOn := by
    rintro configuration rfl other hdocuments
    exact run_templates_withOptions configuration schema documents hdocuments

end Backend

end

end GraphQLIR
