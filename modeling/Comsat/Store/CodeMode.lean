import Comsat.Lib.Persistent
import Comsat.Lib.Text
import Comsat.Types.JsonText

set_option relaxedAutoImplicit false
set_option autoImplicit false

/-!
# The store of Code Mode

What the Code Mode runtime keeps between processes: executions, saved snippets, and the artifacts of
executions, in tables of the database of the native store.

## Main definitions

* `CodeModeRuntime` — the values of the runtime, and how they are written.
* `CodeModeDb`, `CodeModeOp`, `SqliteCodeModeStore.step` — the tables and the operations.
* `liveExecution`, `liveSnippet`, `liveArtifact` — what a run has written last.
* `preview` — the beginning of a long text.

## Main results

* `preview_spec` — a preview is as much of a text as fits.
* `codemode_law` — every reading gives what was written last and not deleted since.

## Design

* The values of the runtime are given by how they are written and read; what its library says about
  a text that it cannot read is left open.
* Rows with one time are listed in the order of the table.
-/

namespace Comsat

/-! ## Values -/

/-- The values of the Code Mode runtime, how they are written and read, and digests of bytes. -/
class CodeModeRuntime (E S : Type) where
  idOf : E → String
  updatedAtOf : E → ℕ
  nameOf : S → String
  savedAtOf : S → ℕ
  encodeExecution : E → String
  decodeExecution : String → Except String E
  encodeSnippet : S → String
  decodeSnippet : String → Except String S
  decodeValue : String → Except String Json
  digest : List UInt8 → String

/-- A reference to an artifact. -/
structure ArtifactRef where
  id : String
  executionId : String
  bytes : ℕ
  preview : String

/-- The most bytes of a preview. -/
def previewBytes : ℕ := 512

/-- The beginning of a text, cut between two characters. -/
def preview (text : String) : String :=
  if text.utf8ByteSize ≤ previewBytes then text
  else
    String.ofList (Text.takeBytes (Text.lastBoundary text.toList previewBytes) text.toList)

/-- **A preview** is as much of a text as fits. -/
theorem preview_spec (text : String) :
    (preview text).toList <+: text.toList ∧ (preview text).utf8ByteSize ≤ previewBytes ∧
      ∀ first : String, first.toList <+: text.toList → first.utf8ByteSize ≤ previewBytes →
        first.toList <+: (preview text).toList := by
  rw [preview]
  split
  · next hshort => exact ⟨List.prefix_refl _, hshort, fun _ h _ => h⟩
  · obtain ⟨hcut, hbound, hlongest⟩ := Text.takeBytes_lastBoundary text.toList previewBytes
    refine ⟨by rwa [String.toList_ofList], ?_, fun first hfirst hsize => ?_⟩
    · rw [Text.utf8ByteSize_eq_sum, String.toList_ofList]
      exact hbound
    · rw [String.toList_ofList]
      exact hlongest _ hfirst (by rwa [Text.bytes, ← Text.utf8ByteSize_eq_sum])

/-! ## Tables -/

/-- A row of the executions. -/
structure ExecutionRow where
  id : String
  updatedAt : ℤ
  state : String

/-- The row with the time and the state of another one. -/
def ExecutionRow.overwrite (old new : ExecutionRow) : ExecutionRow :=
  { old with updatedAt := new.updatedAt, state := new.state }

/-- A row of the snippets. -/
structure SnippetRow where
  name : String
  savedAt : ℤ
  snippet : String

/-- The row with the time and the text of another one. -/
def SnippetRow.overwrite (old new : SnippetRow) : SnippetRow :=
  { old with savedAt := new.savedAt, snippet := new.snippet }

/-- A row of the artifacts. -/
structure ArtifactRow where
  executionId : String
  artifactId : String
  value : String

/-- The execution and the identifier of an artifact. -/
def ArtifactRow.key (row : ArtifactRow) : String × String := (row.executionId, row.artifactId)

/-- The row with the value of another one. -/
def ArtifactRow.overwrite (old new : ArtifactRow) : ArtifactRow := { old with value := new.value }

/-- The tables of Code Mode. -/
structure CodeModeDb where
  executions : List ExecutionRow
  snippets : List SnippetRow
  artifacts : List ArtifactRow

/-- The empty tables. -/
def CodeModeDb.empty : CodeModeDb := ⟨[], [], []⟩

/-- A time in a column. -/
def columnTime (time : ℕ) : ℤ := min time (2 ^ 63 - 1)

/-! ## Operations -/

section

variable {E S : Type}

/-- The operations of the store. -/
inductive CodeModeOp (E S : Type) where
  | getExecution (id : String)
  | putExecution (execution : E)
  | listExecutions
  | deleteExecution (id : String)
  | getSnippet (name : String)
  | putSnippet (snippet : S)
  | listSnippets
  | deleteSnippet (name : String)
  | putArtifact (executionId : String) (value : Json)
  | getArtifact (executionId artifactId : String)
  | deleteArtifacts (executionId : String)

/-- The results of the operations. -/
inductive CodeModeReply (E S : Type) where
  | execution (result : Except String (Option E))
  | executions (result : Except String (List E))
  | snippet (result : Except String (Option S))
  | snippets (result : Except String (List S))
  | deleted (result : Except String Bool)
  | artifactRef (result : Except String ArtifactRef)
  | value (result : Except String (Option Json))
  | done (result : Except String Unit)

variable [CodeModeRuntime E S]

open CodeModeRuntime

namespace SqliteCodeModeStore

variable (E S) (db : CodeModeDb)

/-- Reads an execution. -/
def getExecution (id : String) : Except String (Option E) :=
  match db.executions.find? fun row => row.id = id with
  | some row => (decodeExecution S row.state).map some
  | none => .ok none

/-- Writes an execution. -/
def putExecution (execution : E) : CodeModeDb :=
  let row : ExecutionRow := ⟨idOf S execution, columnTime (updatedAtOf S execution),
    encodeExecution S execution⟩
  { db with executions := Table.upsert ExecutionRow.id ExecutionRow.overwrite db.executions row }

/-- Lists the executions, the latest first. -/
def listExecutions : Except String (List E) :=
  (Table.orderBy (fun row => -row.updatedAt) db.executions).mapM fun row =>
    decodeExecution S row.state

/-- Deletes an execution and its artifacts. -/
def deleteExecution (id : String) : CodeModeDb :=
  { db with
    artifacts := Table.delete (fun row => row.executionId = id) db.artifacts
    executions := Table.delete (fun row => row.id = id) db.executions }

/-- Reads a snippet. -/
def getSnippet (name : String) : Except String (Option S) :=
  match db.snippets.find? fun row => row.name = name with
  | some row => (decodeSnippet E row.snippet).map some
  | none => .ok none

/-- Writes a snippet. -/
def putSnippet (snippet : S) : CodeModeDb :=
  let row : SnippetRow := ⟨nameOf E snippet, columnTime (savedAtOf E snippet),
    encodeSnippet E snippet⟩
  { db with snippets := Table.upsert SnippetRow.name SnippetRow.overwrite db.snippets row }

/-- Lists the snippets by name. -/
def listSnippets : Except String (List S) :=
  (Table.orderBy SnippetRow.name db.snippets).mapM fun row => decodeSnippet E row.snippet

/-- Deletes a snippet, and tells whether there was one. -/
def deleteSnippet (name : String) : CodeModeDb × Bool :=
  let snippets := Table.delete (fun row => row.name = name) db.snippets
  ({ db with snippets }, db.snippets.any fun row => row.name = name)

/-- The identifier of an artifact: a digest of its execution and its text. -/
def artifactId (executionId : String) (value : Json) : String :=
  digest E S (utf8Bytes executionId ++ utf8Bytes value.compact)

/-- Writes an artifact. -/
def putArtifact (executionId : String) (value : Json) : CodeModeDb × ArtifactRef :=
  let id := artifactId E S executionId value
  let row : ArtifactRow := ⟨executionId, id, value.compact⟩
  ({ db with artifacts := Table.upsert ArtifactRow.key ArtifactRow.overwrite db.artifacts row },
    ⟨id, executionId, value.byteLength, preview value.compact⟩)

/-- Reads an artifact. -/
def getArtifact (executionId artifactId : String) : Except String (Option Json) :=
  match db.artifacts.find? fun row => row.key = (executionId, artifactId) with
  | some row => (decodeValue E S row.value).map some
  | none => .ok none

/-- Deletes the artifacts of an execution. -/
def deleteArtifacts (executionId : String) : CodeModeDb :=
  { db with artifacts := Table.delete (fun row => row.executionId = executionId) db.artifacts }

variable {E S}

/-- Carries out an operation. -/
def step : CodeModeOp E S → CodeModeDb × CodeModeReply E S
  | .getExecution id => (db, .execution (getExecution E S db id))
  | .putExecution execution => (putExecution E S db execution, .done (.ok ()))
  | .listExecutions => (db, .executions (listExecutions E S db))
  | .deleteExecution id => (deleteExecution db id, .done (.ok ()))
  | .getSnippet name => (db, .snippet (getSnippet E S db name))
  | .putSnippet snippet => (putSnippet E S db snippet, .done (.ok ()))
  | .listSnippets => (db, .snippets (listSnippets E S db))
  | .deleteSnippet name => ((deleteSnippet db name).1, .deleted (.ok (deleteSnippet db name).2))
  | .putArtifact executionId value =>
    ((putArtifact E S db executionId value).1,
      .artifactRef (.ok (putArtifact E S db executionId value).2))
  | .getArtifact executionId artifactId =>
    (db, .value (getArtifact E S db executionId artifactId))
  | .deleteArtifacts executionId => (deleteArtifacts db executionId, .done (.ok ()))

end SqliteCodeModeStore

/-- The store as a machine. -/
def codeModeStore (E S : Type) [CodeModeRuntime E S] :
    Machine CodeModeDb (CodeModeOp E S) (CodeModeReply E S) :=
  ⟨.empty, SqliteCodeModeStore.step⟩

/-! ## What is kept -/

/-- What an operation writes under the identifier of an execution. -/
def executionWrite (id : String) : CodeModeOp E S → Option (Option E)
  | .putExecution execution => if idOf S execution = id then some (some execution) else none
  | .deleteExecution other => if other = id then some none else none
  | _ => none

/-- What an operation writes under the name of a snippet. -/
def snippetWrite (name : String) : CodeModeOp E S → Option (Option S)
  | .putSnippet snippet => if nameOf E snippet = name then some (some snippet) else none
  | .deleteSnippet other => if other = name then some none else none
  | _ => none

/-- What an operation writes under an execution and the identifier of an artifact. -/
def artifactWrite (key : String × String) : CodeModeOp E S → Option (Option Json)
  | .putArtifact executionId value =>
    if (executionId, SqliteCodeModeStore.artifactId E S executionId value) = key then
      some (some value)
    else none
  | .deleteExecution executionId => if executionId = key.1 then some none else none
  | .deleteArtifacts executionId => if executionId = key.1 then some none else none
  | _ => none

/-- The execution with an identifier that a run has left. -/
def liveExecution (id : String) (ops : List (CodeModeOp E S)) : Option E :=
  Machine.lastWrite (executionWrite id) ops

/-- The snippet with a name that a run has left. -/
def liveSnippet (name : String) (ops : List (CodeModeOp E S)) : Option S :=
  Machine.lastWrite (snippetWrite name) ops

/-- The artifact that a run has left. -/
def liveArtifact (key : String × String) (ops : List (CodeModeOp E S)) : Option Json :=
  Machine.lastWrite (artifactWrite key) ops

/-- The row of an execution. -/
def executionRow (S : Type) [CodeModeRuntime E S] (execution : E) : ExecutionRow :=
  ⟨idOf S execution, columnTime (updatedAtOf S execution), encodeExecution S execution⟩

/-- The row of a snippet. -/
def snippetRow (E : Type) [CodeModeRuntime E S] (snippet : S) : SnippetRow :=
  ⟨nameOf E snippet, columnTime (savedAtOf E snippet), encodeSnippet E snippet⟩

/-- The tables hold what a run has left. -/
structure CodeModeKept (ops : List (CodeModeOp E S)) (db : CodeModeDb) : Prop where
  /-- One row for each execution. -/
  executionIds : (db.executions.map ExecutionRow.id).Nodup
  /-- One row for each snippet. -/
  snippetNames : (db.snippets.map SnippetRow.name).Nodup
  /-- The executions. -/
  executions : ∀ id, db.executions.find? (fun row => row.id = id) =
    (liveExecution id ops).map (executionRow S)
  /-- The snippets. -/
  snippets : ∀ name, db.snippets.find? (fun row => row.name = name) =
    (liveSnippet name ops).map (snippetRow E)
  /-- The artifacts. -/
  artifacts : ∀ key, db.artifacts.find? (fun row => row.key = key) =
    (liveArtifact key ops).map fun value => ⟨key.1, key.2, value.compact⟩

namespace CodeModeKept

variable {ops : List (CodeModeOp E S)} {db : CodeModeDb}

/-- Other executions than those that are written stay. -/
lemma executions_of_none (h : CodeModeKept ops db) {op : CodeModeOp E S}
    (hnone : ∀ id, executionWrite id op = none) (id : String) :
    db.executions.find? (fun row => row.id = id) =
      (liveExecution id (ops ++ [op])).map (executionRow S) := by
  rw [liveExecution, Machine.lastWrite_of_none _ (hnone id)]
  exact h.executions id

/-- Other snippets than those that are written stay. -/
lemma snippets_of_none (h : CodeModeKept ops db) {op : CodeModeOp E S}
    (hnone : ∀ name, snippetWrite name op = none) (name : String) :
    db.snippets.find? (fun row => row.name = name) =
      (liveSnippet name (ops ++ [op])).map (snippetRow E) := by
  rw [liveSnippet, Machine.lastWrite_of_none _ (hnone name)]
  exact h.snippets name

/-- Other artifacts than those that are written stay. -/
lemma artifacts_of_none (h : CodeModeKept ops db) {op : CodeModeOp E S}
    (hnone : ∀ key, artifactWrite key op = none) (key : String × String) :
    db.artifacts.find? (fun row => row.key = key) =
      (liveArtifact key (ops ++ [op])).map fun value => ⟨key.1, key.2, value.compact⟩ := by
  rw [liveArtifact, Machine.lastWrite_of_none _ (hnone key)]
  exact h.artifacts key

/-- The artifacts after those of an execution are deleted. -/
lemma artifacts_of_delete (h : CodeModeKept ops db) {op : CodeModeOp E S} {executionId : String}
    (hwrite : ∀ key : String × String, artifactWrite key op =
      if executionId = key.1 then some none else none) (key : String × String) :
    (Table.delete (fun row => row.executionId = executionId) db.artifacts).find?
        (fun row => row.key = key) =
      (liveArtifact key (ops ++ [op])).map fun value => ⟨key.1, key.2, value.compact⟩ := by
  rw [liveArtifact, Machine.lastWrite_snoc, hwrite,
    Table.find?_delete (d := executionId = key.1) fun row hrow => ?_, h.artifacts]
  · split <;> rfl
  · have hkey : row.key = key := of_decide_eq_true hrow
    rw [← hkey, decide_eq_true_iff]
    exact eq_comm

/-- An operation that writes nothing keeps the tables. -/
lemma quiet (h : CodeModeKept ops db) {op : CodeModeOp E S}
    (hexecutions : ∀ id, executionWrite id op = none)
    (hsnippets : ∀ name, snippetWrite name op = none)
    (hartifacts : ∀ key, artifactWrite key op = none) : CodeModeKept (ops ++ [op]) db :=
  ⟨h.executionIds, h.snippetNames, h.executions_of_none hexecutions, h.snippets_of_none hsnippets,
    h.artifacts_of_none hartifacts⟩

/-- **An operation** keeps what the tables say. -/
lemma step (h : CodeModeKept ops db) (op : CodeModeOp E S) :
    CodeModeKept (ops ++ [op]) (SqliteCodeModeStore.step db op).1 := by
  cases op with
  | getExecution id => exact h.quiet (fun _ => rfl) (fun _ => rfl) fun _ => rfl
  | listExecutions => exact h.quiet (fun _ => rfl) (fun _ => rfl) fun _ => rfl
  | getSnippet name => exact h.quiet (fun _ => rfl) (fun _ => rfl) fun _ => rfl
  | listSnippets => exact h.quiet (fun _ => rfl) (fun _ => rfl) fun _ => rfl
  | getArtifact executionId artifactId => exact h.quiet (fun _ => rfl) (fun _ => rfl) fun _ => rfl
  | putExecution execution =>
    refine ⟨Table.nodup_upsert (fun _ _ => rfl) h.executionIds, h.snippetNames, fun id => ?_,
      h.snippets_of_none fun _ => rfl, h.artifacts_of_none fun _ => rfl⟩
    rw [liveExecution, Machine.lastWrite_snoc]
    refine (Table.find?_upsert (fun old hold => ?_) id).trans ?_
    · rw [ExecutionRow.overwrite, hold]
    · rw [h.executions, executionWrite]
      change (if idOf S execution = id then _ else _) = _
      split <;> rfl
  | putSnippet snippet =>
    refine ⟨h.executionIds, Table.nodup_upsert (fun _ _ => rfl) h.snippetNames,
      h.executions_of_none fun _ => rfl, fun name => ?_, h.artifacts_of_none fun _ => rfl⟩
    rw [liveSnippet, Machine.lastWrite_snoc]
    refine (Table.find?_upsert (fun old hold => ?_) name).trans ?_
    · rw [SnippetRow.overwrite, hold]
    · rw [h.snippets, snippetWrite]
      change (if nameOf E snippet = name then _ else _) = _
      split <;> rfl
  | deleteExecution id =>
    refine ⟨Table.nodup_delete h.executionIds, h.snippetNames, fun other => ?_,
      h.snippets_of_none fun _ => rfl, h.artifacts_of_delete fun _ => rfl⟩
    rw [liveExecution, Machine.lastWrite_snoc]
    refine (Table.find?_delete (d := id = other) fun row hrow => ?_).trans ?_
    · have hid : row.id = other := of_decide_eq_true hrow
      rw [← hid, decide_eq_true_iff]
      exact eq_comm
    · rw [h.executions, executionWrite]
      split <;> rfl
  | deleteSnippet name =>
    refine ⟨h.executionIds, Table.nodup_delete h.snippetNames, h.executions_of_none fun _ => rfl,
      fun other => ?_, h.artifacts_of_none fun _ => rfl⟩
    rw [liveSnippet, Machine.lastWrite_snoc]
    refine (Table.find?_delete (d := name = other) fun row hrow => ?_).trans ?_
    · have hname : row.name = other := of_decide_eq_true hrow
      rw [← hname, decide_eq_true_iff]
      exact eq_comm
    · rw [h.snippets, snippetWrite]
      split <;> rfl
  | putArtifact executionId value =>
    refine ⟨h.executionIds, h.snippetNames, h.executions_of_none fun _ => rfl,
      h.snippets_of_none fun _ => rfl, fun key => ?_⟩
    rw [liveArtifact, Machine.lastWrite_snoc]
    refine (Table.find?_upsert (fun old hold => ?_) key).trans ?_
    · have hkey : (old.executionId, old.artifactId) = (executionId, _) := hold
      obtain ⟨rfl, hid⟩ := Prod.mk.inj hkey
      rw [ArtifactRow.overwrite, hid]
    · rw [h.artifacts, artifactWrite]
      change (if (executionId, SqliteCodeModeStore.artifactId E S executionId value) = key then _
        else _) = _
      split
      · next hkey => rw [← hkey]; rfl
      · rfl
  | deleteArtifacts executionId =>
    exact ⟨h.executionIds, h.snippetNames, h.executions_of_none fun _ => rfl,
      h.snippets_of_none fun _ => rfl, h.artifacts_of_delete fun _ => rfl⟩

end CodeModeKept

/-- The tables after a run hold what it has left. -/
lemma codeModeKept_run (ops : List (CodeModeOp E S)) :
    CodeModeKept ops ((codeModeStore E S).run ops) := by
  induction ops using List.reverseRecOn with
  | nil => exact ⟨List.nodup_nil, List.nodup_nil, fun _ => rfl, fun _ => rfl, fun _ => rfl⟩
  | append_singleton ops op ih =>
    rw [Machine.run_snoc]
    exact ih.step op

/-- **Code Mode keeps what it is given**: after every run, reading an execution, a snippet or an
artifact gives the decoded text of what was written last under its identifier and not deleted since,
and nothing if there is no such thing; deleting an execution deletes its artifacts too. The lists are
those of all executions, the latest first, and of all snippets by name; and deleting a snippet tells
whether there was one. An artifact is found under the reference that writing it returns, whose
preview is as much of its text as fits.

**Proof sketch.** Each table has one row for what is kept under each key, which every operation
keeps so (`CodeModeKept.step`). -/
theorem codemode_law (ops : List (CodeModeOp E S)) :
    let db := (codeModeStore E S).run ops
    (∀ id, SqliteCodeModeStore.getExecution E S db id =
      match liveExecution id ops with
      | some execution => (decodeExecution S (encodeExecution S execution)).map some
      | none => .ok none) ∧
    (∀ name, SqliteCodeModeStore.getSnippet E S db name =
      match liveSnippet name ops with
      | some snippet => (decodeSnippet E (encodeSnippet E snippet)).map some
      | none => .ok none) ∧
    (∀ executionId artifactId, SqliteCodeModeStore.getArtifact E S db executionId artifactId =
      match liveArtifact (executionId, artifactId) ops with
      | some value => (decodeValue E S value.compact).map some
      | none => .ok none) ∧
    (∃ kept : List E, (kept.map (idOf S)).Nodup ∧
      (∀ execution, execution ∈ kept ↔ liveExecution (idOf S execution) ops = some execution) ∧
      (kept.Pairwise fun a b => columnTime (updatedAtOf S b) ≤ columnTime (updatedAtOf S a)) ∧
      SqliteCodeModeStore.listExecutions E S db =
        kept.mapM fun execution => decodeExecution S (encodeExecution S execution)) ∧
    (∃ kept : List S, (kept.Pairwise fun a b => nameOf E a < nameOf E b) ∧
      (∀ snippet, snippet ∈ kept ↔ liveSnippet (nameOf E snippet) ops = some snippet) ∧
      SqliteCodeModeStore.listSnippets E S db =
        kept.mapM fun snippet => decodeSnippet E (encodeSnippet E snippet)) ∧
    (∀ name, (SqliteCodeModeStore.deleteSnippet db name).2 = (liveSnippet name ops).isSome) ∧
    ∀ executionId value, let (db', ref) := SqliteCodeModeStore.putArtifact E S db executionId value
      SqliteCodeModeStore.getArtifact E S db' executionId ref.id =
        (decodeValue E S value.compact).map some ∧
      ref.preview.toList <+: value.compact.toList ∧ ref.preview.utf8ByteSize ≤ previewBytes ∧
      ∀ first : String, first.toList <+: value.compact.toList →
        first.utf8ByteSize ≤ previewBytes → first.toList <+: ref.preview.toList := by
  intro db
  have h : CodeModeKept ops db := codeModeKept_run ops
  refine ⟨fun id => ?_, fun name => ?_, fun executionId artifactId => ?_, ?_, ?_, fun name => ?_,
    fun executionId value => ⟨?_, preview_spec _⟩⟩
  · rw [SqliteCodeModeStore.getExecution, h.executions]
    cases liveExecution id ops <;> rfl
  · rw [SqliteCodeModeStore.getSnippet, h.snippets]
    cases liveSnippet name ops <;> rfl
  · rw [SqliteCodeModeStore.getArtifact, h.artifacts]
    cases liveArtifact (executionId, artifactId) ops <;> rfl
  · have hperm : (Table.orderBy (fun row : ExecutionRow => -row.updatedAt) db.executions).Perm
        db.executions := Table.orderBy_perm
    obtain ⟨kept, hrows, hmem⟩ := Table.exists_map_eq_of_perm h.executionIds h.executions hperm
    refine ⟨kept, ?_, hmem, ?_, ?_⟩
    · have hids := (hperm.map ExecutionRow.id).nodup_iff.mpr h.executionIds
      rwa [← hrows, List.map_map] at hids
    · have hsorted : (Table.orderBy (fun row : ExecutionRow => -row.updatedAt)
          db.executions).Pairwise fun a b => -a.updatedAt ≤ -b.updatedAt := Table.pairwise_orderBy
      rw [← hrows] at hsorted
      exact (List.pairwise_map.mp hsorted).imp fun hle => neg_le_neg_iff.mp hle
    · rw [SqliteCodeModeStore.listExecutions, ← hrows, List.mapM_map]
      rfl
  · have hperm : (Table.orderBy SnippetRow.name db.snippets).Perm db.snippets :=
      Table.orderBy_perm
    obtain ⟨kept, hrows, hmem⟩ := Table.exists_map_eq_of_perm h.snippetNames h.snippets hperm
    have hnames := (hperm.map SnippetRow.name).nodup_iff.mpr h.snippetNames
    have hsorted : (Table.orderBy SnippetRow.name db.snippets).Pairwise fun a b =>
      a.name ≤ b.name := Table.pairwise_orderBy
    rw [← hrows] at hsorted hnames
    refine ⟨kept, ?_, hmem, ?_⟩
    · rw [List.map_map] at hnames
      exact ((List.pairwise_map.mp hsorted).and (List.pairwise_map.mp hnames)).imp
        fun hboth => lt_of_le_of_ne hboth.1 hboth.2
    · rw [SqliteCodeModeStore.listSnippets, ← hrows, List.mapM_map]
      rfl
  · have hfound := congrArg Option.isSome (h.snippets name)
    rw [Option.isSome_map, List.isSome_find?] at hfound
    exact hfound
  · have hput := (h.step (.putArtifact executionId value)).artifacts
      (executionId, SqliteCodeModeStore.artifactId E S executionId value)
    rw [liveArtifact, Machine.lastWrite_snoc, artifactWrite, if_pos rfl] at hput
    have hfound : (SqliteCodeModeStore.putArtifact E S db executionId value).1.artifacts.find?
        (fun row => row.key = (executionId,
          SqliteCodeModeStore.artifactId E S executionId value)) = some ⟨_, _, value.compact⟩ := hput
    dsimp only
    rw [SqliteCodeModeStore.getArtifact]
    change (match (SqliteCodeModeStore.putArtifact E S db executionId value).1.artifacts.find?
      (fun row => row.key = (executionId,
        SqliteCodeModeStore.artifactId E S executionId value)) with
      | some row => (decodeValue E S row.value).map some
      | none => .ok none) = _
    rw [hfound]

end

end Comsat
