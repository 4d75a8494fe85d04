import Comsat.Store.Effects
import Comsat.Store.CodeMode

set_option relaxedAutoImplicit false
set_option autoImplicit false

/-!
# The native store

The native processes keep everything in one file, which only comes into being when there is
something to write: to read what nobody has written, no file is needed.

## Main definitions

* `NativeDb` — the tables of the file.
* `LazySqliteStore`, `LazyCodeModeStore` — the stores of a process over the file.
* `nativeStores` — any number of processes with one file.

## Main results

* `native_stores_lazy` — the file is there once something was written, and the processes get the
  answers of stores that have been there from the start.

## Design

* The file system and the database work: directories are created, and files can be opened.
* A process keeps the file open for Code Mode once it has opened it.
-/

namespace Comsat

/-- The tables of the file. -/
structure NativeDb where
  store : Db
  codeMode : CodeModeDb

/-- The tables of a new file. -/
def NativeDb.empty : NativeDb := ⟨.empty, .empty⟩

/-! ## The store -/

namespace LazySqliteStore

variable (file : Option NativeDb)

/-- Opens the file if there is one. -/
def openRead : Option NativeDb := file

/-- Opens the file, or a new one. -/
def openWrite : NativeDb := file.getD .empty

/-- What an operation on the store leaves in an open file. -/
def onStore {α : Type} (db : NativeDb) (result : Db × α) : Option NativeDb × α :=
  (some { db with store := result.1 }, result.2)

/-- Records a source of a tenant. -/
def upsertSource (request : UpsertSource) : Option NativeDb × StoreResult Unit :=
  let db := openWrite file
  onStore db (SqliteStore.upsertSource db.store request)

/-- Creates a watch. -/
def createWatch [ExternalParsers] (request : CreateWatch) :
    Option NativeDb × StoreResult Watch :=
  let db := openWrite file
  onStore db (SqliteStore.createWatch db.store request)

/-- Lists the watches of a tenant. -/
def listWatches (tenantId : String) : Option NativeDb × StoreResult (List Watch) :=
  match openRead file with
  | none => (file, .ok [])
  | some db => onStore db (SqliteStore.listWatches db.store tenantId)

/-- Deletes a watch. -/
def deleteWatch (request : DeleteWatch) : Option NativeDb × StoreResult Bool :=
  match openRead file with
  | none => (file, .ok false)
  | some db => onStore db (SqliteStore.deleteWatch db.store request)

/-- Claims the next due watch. -/
def claimDueWatch (request : ClaimDueWatch) :
    Option NativeDb × StoreResult (Option ClaimedWatch) :=
  match openRead file with
  | none => (file, .ok none)
  | some db => onStore db (SqliteStore.claimDueWatch db.store request)

/-- Starts a run. -/
def startWatchRun (request : StartWatchRun) : Option NativeDb × StoreResult WatchRun :=
  let db := openWrite file
  onStore db (SqliteStore.startWatchRun db.store request)

/-- Completes a run. -/
def completeWatchRun [ExternalParsers] (request : CompleteWatchRun) :
    Option NativeDb × StoreResult WatchRunOutcome :=
  let db := openWrite file
  onStore db (SqliteStore.completeWatchRun db.store request)

/-- Reads the history. -/
def history (request : HistoryRequest) :
    Option NativeDb × StoreResult (List RecordObservation) :=
  match openRead file with
  | none => (file, .ok [])
  | some db => onStore db (SqliteStore.history db.store request)

/-- Claims the next delivery. -/
def claimPendingDelivery (request : ClaimPendingDelivery) :
    Option NativeDb × StoreResult (Option Delivery) :=
  match openRead file with
  | none => (file, .ok none)
  | some db => onStore db (SqliteStore.claimPendingDelivery db.store request)

/-- Acknowledges an attempt at a delivery. -/
def completeDelivery (request : CompleteDelivery) : Option NativeDb × StoreResult Delivery :=
  let db := openWrite file
  onStore db (SqliteStore.completeDelivery db.store request)

/-- Lists deliveries. -/
def listDeliveries (request : ListDeliveries) : Option NativeDb × StoreResult (List Delivery) :=
  match openRead file with
  | none => (file, .ok [])
  | some db => onStore db (SqliteStore.listDeliveries db.store request)

/-- Carries out an operation. -/
def step [ExternalParsers] : StoreOp → Option NativeDb × StoreReply
  | .upsertSource request => (upsertSource file request).map id .sourceUpserted
  | .createWatch request => (createWatch file request).map id .watchCreated
  | .listWatches tenantId => (listWatches file tenantId).map id .watchesListed
  | .deleteWatch request => (deleteWatch file request).map id .watchDeleted
  | .claimDueWatch request => (claimDueWatch file request).map id .watchClaimed
  | .startWatchRun request => (startWatchRun file request).map id .runStarted
  | .completeWatchRun request => (completeWatchRun file request).map id .runCompleted
  | .history request => (history file request).map id .historyRead
  | .claimPendingDelivery request =>
    (claimPendingDelivery file request).map id .deliveryClaimed
  | .completeDelivery request => (completeDelivery file request).map id .deliveryCompleted
  | .listDeliveries request => (listDeliveries file request).map id .deliveriesListed

end LazySqliteStore

/-! ## Code Mode -/

/-- The store of Code Mode in a process: the file, and whether the process has it open. -/
structure LazyCodeModeStore where
  file : Option NativeDb
  opened : Bool

namespace LazyCodeModeStore

variable (lazy : LazyCodeModeStore)

/-- The file that the process has open, or opens now. -/
def «open» : LazyCodeModeStore × NativeDb :=
  let db := lazy.file.getD .empty
  if lazy.opened then (lazy, db) else (⟨some db, true⟩, db)

/-- Opens the file if there is one. -/
def read : LazyCodeModeStore × Option NativeDb :=
  match lazy.file with
  | none => (lazy, none)
  | some _ => lazy.open.map id some

/-- Opens the file, or a new one. -/
def write : LazyCodeModeStore × NativeDb := lazy.open

variable {E S : Type} [CodeModeRuntime E S]

/-- What an operation leaves in the open file. -/
def carryOut (db : NativeDb) (op : CodeModeOp E S) : LazyCodeModeStore × CodeModeReply E S :=
  let (codeMode, reply) := SqliteCodeModeStore.step db.codeMode op
  ({ lazy with file := some { db with codeMode } }, reply)

/-- An operation that needs no file: without one, it has an answer of its own. -/
def reading (op : CodeModeOp E S) (without : CodeModeReply E S) :
    LazyCodeModeStore × CodeModeReply E S :=
  match lazy.read with
  | (lazy, none) => (lazy, without)
  | (lazy, some db) => lazy.carryOut db op

/-- An operation that needs the file. -/
def writing (op : CodeModeOp E S) : LazyCodeModeStore × CodeModeReply E S :=
  let (lazy, db) := lazy.write
  lazy.carryOut db op

/-- Carries out an operation. -/
def step : CodeModeOp E S → LazyCodeModeStore × CodeModeReply E S
  | .getExecution id => lazy.reading (.getExecution id) (.execution (.ok none))
  | .putExecution execution => lazy.writing (.putExecution execution)
  | .listExecutions => lazy.reading .listExecutions (.executions (.ok []))
  | .deleteExecution id => lazy.reading (.deleteExecution id) (.done (.ok ()))
  | .getSnippet name => lazy.reading (.getSnippet name) (.snippet (.ok none))
  | .putSnippet snippet => lazy.writing (.putSnippet snippet)
  | .listSnippets => lazy.reading .listSnippets (.snippets (.ok []))
  | .deleteSnippet name => lazy.reading (.deleteSnippet name) (.deleted (.ok false))
  | .putArtifact executionId value => lazy.writing (.putArtifact executionId value)
  | .getArtifact executionId artifactId =>
    lazy.reading (.getArtifact executionId artifactId) (.value (.ok none))
  | .deleteArtifacts executionId => lazy.reading (.deleteArtifacts executionId) (.done (.ok ()))

end LazyCodeModeStore

/-! ## Processes -/

/-- The processes and their file. -/
structure NativeStores (P : Type) where
  file : Option NativeDb
  opened : P → Bool

variable {P E S : Type}

/-- An operation of a process, on the store or on that of Code Mode. -/
abbrev NativeOp (P E S : Type) := P × (StoreOp ⊕ CodeModeOp E S)

section

variable [ExternalParsers] [DecidableEq P] [CodeModeRuntime E S]

/-- One operation. -/
def NativeStores.step (system : NativeStores P) :
    NativeOp P E S → NativeStores P × (StoreReply ⊕ CodeModeReply E S)
  | (_, .inl op) =>
    let (file, reply) := LazySqliteStore.step system.file op
    ({ system with file }, .inl reply)
  | (process, .inr op) =>
    let (lazy, reply) := LazyCodeModeStore.step ⟨system.file, system.opened process⟩ op
    (⟨lazy.file, Function.update system.opened process lazy.opened⟩, .inr reply)

/-- The processes begin without a file. -/
def nativeStores (P E S : Type) [DecidableEq P] [CodeModeRuntime E S] :
    Machine (NativeStores P) (NativeOp P E S) (StoreReply ⊕ CodeModeReply E S) :=
  ⟨⟨none, fun _ => false⟩, NativeStores.step⟩

end

/-! ## Answers without a file -/

/-- The checks of the request of an operation. -/
def StoreOp.validate [ExternalParsers] : StoreOp → StoreResult Unit
  | upsertSource request => request.validate
  | createWatch request => request.validate
  | listWatches tenantId => validateTenantId tenantId
  | deleteWatch request => request.validate
  | claimDueWatch request => request.validate
  | startWatchRun request => request.validate
  | completeWatchRun request => request.validate
  | history request => request.validate
  | claimPendingDelivery request => request.validate
  | completeDelivery request => request.validate
  | listDeliveries request => request.validate

/-- The answer without a file, if the operation needs none. -/
def StoreOp.idleReply : StoreOp → Option StoreReply
  | listWatches _ => some (.watchesListed (.ok []))
  | deleteWatch _ => some (.watchDeleted (.ok false))
  | claimDueWatch _ => some (.watchClaimed (.ok none))
  | history _ => some (.historyRead (.ok []))
  | claimPendingDelivery _ => some (.deliveryClaimed (.ok none))
  | listDeliveries _ => some (.deliveriesListed (.ok []))
  | _ => none

/-- The answer without a file, if the operation needs none. -/
def CodeModeOp.idleReply : CodeModeOp E S → Option (CodeModeReply E S)
  | getExecution _ => some (.execution (.ok none))
  | listExecutions => some (.executions (.ok []))
  | deleteExecution _ => some (.done (.ok ()))
  | getSnippet _ => some (.snippet (.ok none))
  | listSnippets => some (.snippets (.ok []))
  | deleteSnippet _ => some (.deleted (.ok false))
  | getArtifact _ _ => some (.value (.ok none))
  | deleteArtifacts _ => some (.done (.ok ()))
  | _ => none

/-- The answer without a file, if the operation needs none. -/
def NativeOp.idleReply : NativeOp P E S → Option (StoreReply ⊕ CodeModeReply E S)
  | (_, .inl op) => op.idleReply.map .inl
  | (_, .inr op) => op.idleReply.map .inr

section

variable [ExternalParsers]

/-- An operation that needs no file changes nothing in an empty store, which gives the same answer to
a valid request. -/
lemma StoreOp.step_empty {op : StoreOp} {reply : StoreReply} (h : op.idleReply = some reply) :
    (Adapter.sqlite.step .empty op).1 = .empty ∧
      (op.validate = .ok () → (Adapter.sqlite.step .empty op).2 = reply) := by
  cases op with
  | listWatches tenantId =>
    refine ⟨rfl, fun hvalid => ?_⟩
    obtain rfl := Option.some.inj h
    change validateTenantId tenantId = .ok () at hvalid
    simp only [Adapter.step, Adapter.listWatches, SqliteStore.listWatches, query, hvalid]
    rfl
  | history request =>
    refine ⟨rfl, fun hvalid => ?_⟩
    obtain rfl := Option.some.inj h
    change request.validate = .ok () at hvalid
    have htenant : Db.empty.historyForTenant request.tenantId request.since request.limit = [] :=
      List.take_nil
    have hwatch : ∀ watchId, Db.empty.historyForWatch request.tenantId watchId request.since
        request.limit = [] := fun _ => List.take_nil
    simp only [Adapter.step, Adapter.history, SqliteStore.history, query, hvalid, htenant, hwatch]
    cases request.watchId <;> rfl
  | listDeliveries request =>
    refine ⟨rfl, fun hvalid => ?_⟩
    obtain rfl := Option.some.inj h
    change request.validate = .ok () at hvalid
    have hnone : Db.empty.listDeliveries request.tenantId request.status request.limit = [] :=
      List.take_nil
    simp only [Adapter.step, Adapter.listDeliveries, SqliteStore.listDeliveries, query, hvalid,
      hnone]
    rfl
  | deleteWatch request =>
    obtain rfl := Option.some.inj h
    simp only [Adapter.step, Adapter.deleteWatch, SqliteStore.deleteWatch, StoreOp.validate]
    cases request.validate with
    | error e => exact ⟨rfl, fun hvalid => by cases hvalid⟩
    | ok _ => exact ⟨rfl, fun _ => rfl⟩
  | claimDueWatch request =>
    obtain rfl := Option.some.inj h
    simp only [Adapter.step, Adapter.claimDueWatch, SqliteStore.claimDueWatch, StoreOp.validate]
    cases request.validate with
    | error e => exact ⟨rfl, fun hvalid => by cases hvalid⟩
    | ok _ => exact ⟨rfl, fun _ => rfl⟩
  | claimPendingDelivery request =>
    obtain rfl := Option.some.inj h
    simp only [Adapter.step, Adapter.claimPendingDelivery, SqliteStore.claimPendingDelivery,
      StoreOp.validate]
    cases hvalid : request.validate with
    | error e => exact ⟨rfl, fun hvalid => by cases hvalid⟩
    | ok _ =>
      have hlease := i64FromU64_of_le "lease_seconds"
        (ClaimPendingDelivery.lease_of_validate hvalid).2
      rw [hlease]
      exact ⟨rfl, fun _ => rfl⟩
  | _ => cases h

omit [ExternalParsers] in
/-- An operation of Code Mode that needs no file changes nothing in empty tables, and has the same
answer. -/
lemma CodeModeOp.step_empty [CodeModeRuntime E S] {op : CodeModeOp E S} {reply : CodeModeReply E S}
    (h : op.idleReply = some reply) : SqliteCodeModeStore.step .empty op = (.empty, reply) := by
  cases op with
  | putExecution execution => cases h
  | putSnippet snippet => cases h
  | putArtifact executionId value => cases h
  | _ => obtain rfl := Option.some.inj h; rfl

variable [DecidableEq P] [CodeModeRuntime E S]

omit [ExternalParsers] [DecidableEq P] in
/-- What an operation of Code Mode leaves in the file, and its answer, do not depend on whether the
process has the file open. -/
lemma LazyCodeModeStore.step_eq (lazy : LazyCodeModeStore) (op : CodeModeOp E S) :
    ((lazy.step op).1.file, (lazy.step op).2) =
      match lazy.file, op.idleReply with
      | none, some reply => (none, reply)
      | file, _ =>
        let db := file.getD .empty
        let result := SqliteCodeModeStore.step db.codeMode op
        (some { db with codeMode := result.1 }, result.2) := by
  obtain ⟨file, opened⟩ := lazy
  cases file <;> cases opened <;> cases op <;> rfl

/-- Stores that have been there from the start. -/
def eagerStores (P E S : Type) [CodeModeRuntime E S] :
    Machine (Db × CodeModeDb) (NativeOp P E S) (StoreReply ⊕ CodeModeReply E S) :=
  (Adapter.sqlite.store.both (codeModeStore E S)).comap Prod.snd

/-- The tables of the file, one beside the other. -/
def NativeDb.tables (db : NativeDb) : Db × CodeModeDb := (db.store, db.codeMode)

/-- **An operation of a process** acts on the file as on stores that come into being with the first
operation that needs them. -/
lemma NativeStores.step_eq (system : NativeStores P) (op : NativeOp P E S) :
    ((system.step op).1.file.map NativeDb.tables, (system.step op).2) =
      ((eagerStores P E S).lazily NativeOp.idleReply).step (system.file.map NativeDb.tables) op := by
  obtain ⟨file, opened⟩ := system
  obtain ⟨process, op | op⟩ := op
  · cases file with
    | none => cases op <;> rfl
    | some db => cases op <;> rfl
  · have hlazy := LazyCodeModeStore.step_eq ⟨file, opened process⟩ op
    have hfile := congrArg Prod.fst hlazy
    have hreply := congrArg Prod.snd hlazy
    dsimp only at hfile hreply
    rw [NativeStores.step]
    dsimp only
    rw [hfile, hreply]
    cases file with
    | none => cases op <;> rfl
    | some db => rfl

omit [DecidableEq P] in
/-- Operations that need no file leave stores that have been there from the start as they were. -/
lemma eagerStores_idle (op : NativeOp P E S) (h : op.idleReply.isSome = true) :
    ((eagerStores P E S).step (eagerStores P E S).init op).1 = (eagerStores P E S).init := by
  obtain ⟨process, op | op⟩ := op
  · cases hop : op.idleReply with
    | none => simp [NativeOp.idleReply, hop] at h
    | some reply => exact Prod.ext (StoreOp.step_empty hop).1 rfl
  · cases hop : op.idleReply with
    | none => simp [NativeOp.idleReply, hop] at h
    | some reply => exact Prod.ext rfl (congrArg Prod.fst (CodeModeOp.step_empty hop))

/-- **A run of the processes** acts on the file as a run of stores that come into being with the
first operation that needs them. -/
lemma nativeStores_run (ops : List (NativeOp P E S)) :
    ((nativeStores P E S).run ops).file.map NativeDb.tables =
      ((eagerStores P E S).lazily NativeOp.idleReply).run ops := by
  induction ops using List.reverseRecOn with
  | nil => rfl
  | append_singleton ops op ih =>
    rw [Machine.run_snoc, Machine.run_snoc, ← ih]
    exact congrArg Prod.fst (NativeStores.step_eq _ op)

/-- **The native store is lazy**: whatever any number of processes do with the store and with Code
Mode, in any order, the file is there exactly if one of the operations needed it, and holds what
stores would hold that have been there from the start, each with its own operations. The answers are
theirs too; only a request that is not valid gets an empty answer instead of an error as long as
there is no file.

**Proof sketch.** The operations that need no file change nothing in empty stores
(`StoreOp.step_empty`), so it does not matter when the stores come into being
(`Machine.run_lazily`); and the two stores only see their own operations (`Machine.run_both`). -/
theorem native_stores_lazy (ops : List (NativeOp P E S)) :
    let system := (nativeStores P E S).run ops
    let db := Adapter.sqlite.store.run ((ops.map Prod.snd).filterMap Sum.getLeft?)
    let codeMode := (codeModeStore E S).run ((ops.map Prod.snd).filterMap Sum.getRight?)
    system.file = (if ∀ op ∈ ops, op.idleReply.isSome = true then none
      else some ⟨db, codeMode⟩) ∧
    (∀ process op, (system.step ((process, .inl op) : NativeOp P E S)).2 =
      .inl (if ∀ op ∈ ops, op.idleReply.isSome = true then
        op.idleReply.getD (Adapter.sqlite.step db op).2 else (Adapter.sqlite.step db op).2)) ∧
    (∀ process op, op.validate = .ok () →
      (system.step ((process, .inl op) : NativeOp P E S)).2 =
        .inl (Adapter.sqlite.step db op).2) ∧
    ∀ process op, (system.step ((process, .inr op) : NativeOp P E S)).2 =
      .inr (SqliteCodeModeStore.step codeMode op).2 := by
  intro system db codeMode
  have hrun : (eagerStores P E S).run ops = (db, codeMode) := by
    rw [eagerStores, Machine.run_comap, Machine.run_both]
  have hfile := nativeStores_run ops
  have hreply : ∀ op, (system.step op).2 = if Machine.AllIdle NativeOp.idleReply ops then
      op.idleReply.getD ((eagerStores P E S).step (db, codeMode) op).2
      else ((eagerStores P E S).step (db, codeMode) op).2 := by
    intro op
    have hstep := congrArg Prod.snd (NativeStores.step_eq system op)
    rw [hfile] at hstep
    rw [← hrun, ← Machine.lazily_reply eagerStores_idle]
    exact hstep
  -- without a file, the stores are empty
  have hempty : Machine.AllIdle NativeOp.idleReply ops → db = .empty ∧ codeMode = .empty :=
    fun hidle => Prod.mk.inj (hrun.symm.trans (Machine.run_of_allIdle eagerStores_idle hidle))
  have hstore : ∀ process op, (system.step ((process, .inl op) : NativeOp P E S)).2 =
      .inl (if Machine.AllIdle NativeOp.idleReply ops then
        op.idleReply.getD (Adapter.sqlite.step db op).2 else (Adapter.sqlite.step db op).2) := by
    intro process op
    rw [hreply]
    split
    · cases hop : op.idleReply <;> simp only [NativeOp.idleReply, hop] <;> rfl
    · rfl
  refine ⟨?_, hstore, fun process op hvalid => ?_, fun process op => ?_⟩
  · rw [Machine.run_lazily eagerStores_idle, hrun] at hfile
    by_cases hidle : Machine.AllIdle NativeOp.idleReply ops
    · rw [if_pos hidle] at hfile
      exact (Option.map_eq_none_iff.mp hfile).trans (if_pos hidle).symm
    · rw [if_neg hidle] at hfile
      obtain ⟨found, hfound, htables⟩ := Option.map_eq_some_iff.mp hfile
      obtain ⟨store, codeMode'⟩ := found
      obtain ⟨hdb, hcode⟩ : store = db ∧ codeMode' = codeMode := Prod.mk.inj htables
      rw [hdb, hcode] at hfound
      exact hfound.trans (if_neg hidle).symm
  · rw [hstore]
    split
    · next hidle =>
      rw [(hempty hidle).1]
      cases hop : op.idleReply with
      | none => rfl
      | some reply => rw [Option.getD_some, (StoreOp.step_empty hop).2 hvalid]
    · rfl
  · rw [hreply]
    split
    · next hidle =>
      rw [(hempty hidle).1, (hempty hidle).2]
      cases hop : op.idleReply with
      | none => simp only [NativeOp.idleReply, hop]; rfl
      | some reply =>
        rw [CodeModeOp.step_empty hop]
        simp only [NativeOp.idleReply, hop]
        rfl
    · rfl

end

end Comsat
