import Comsat.Lib.Lines
import Comsat.Types.JsonText

set_option relaxedAutoImplicit false
set_option autoImplicit false

/-!
# The output of the command line

The transport prints envelopes, and the writer turns them into a stream of data on the standard
output and of diagnostics on the standard error. It reads what it has so far at every new line, and
waits for more when the text breaks off.

## Main definitions

* `JsonReader` — the reader of JSON texts.
* `UnixOutput` — the writer.
* `Envelope`, `Printed` — envelopes, and how they are printed.
* `Documented` — what the reader says about a printed value.
* `Framed` — every write succeeds, and each envelope comes to the lines that it should.

## Main results

* `UnixOutput.writes_eq` — how the bytes are split does not matter.
* `unix_output_framed_iff` — the lines are the right ones exactly when every envelope can be read.

## Design

* The two outputs keep what is written to them, and take all of it.
* Arrays and objects may nest 127 deep for the reader; and a number may be read as another one,
  which is how the reader treats fractions.
-/

namespace Comsat

open Json

/-! ## The reader -/

/-- Why a text cannot be read: it breaks off, or not. -/
structure JsonError where
  isEof : Bool
deriving DecidableEq

/-- The reader of JSON texts: what it makes of some bytes, and what it reads for a number. -/
class JsonReader where
  read : List UInt8 → Except JsonError Json
  number : String → String
  number_isNumeral : ∀ literal, IsNumeral literal → IsNumeral (number literal)

/-! ## The writer -/

/-- The most bytes that a text may have before it ends. -/
def maxLineBytes : ℕ := 8 * 1024 * 1024

/-- The bytes of a value, without the end of its line. -/
def jsonBytes (value : Json) : List UInt8 := utf8Bytes value.compact

/-- The line of a value. -/
def jsonLine (value : Json) : List UInt8 := jsonBytes value ++ [newline]

/-- The text of a field, if it is one. -/
def textField (value : Json) (name : String) : Option String := (value.get? name).bind asStr?

/-- White space between the values of a text. -/
def isAsciiWhitespace (byte : UInt8) : Bool :=
  byte = 0x20 || byte = 0x09 || byte = 0x0A || byte = 0x0C || byte = 0x0D

/-- The codes of an invocation that is not valid. -/
def invalidInvocationCodes : List String :=
  ["VALIDATION_ERROR", "UNKNOWN_COMMAND", "COMMAND_NOT_FOUND", "UNKNOWN_OPTION", "PARSE_ERROR"]

/-- The writer: its outputs, and the text that has not ended yet. -/
structure UnixOutput where
  stdout : List UInt8
  stderr : List UInt8
  pending : List UInt8
  invalidInvocation : Bool

namespace UnixOutput

/-- A writer to empty outputs. -/
def new : UnixOutput := ⟨[], [], [], false⟩

/-- Writes to the standard output. -/
def toStdout (out : UnixOutput) (bytes : List UInt8) : UnixOutput :=
  { out with stdout := out.stdout ++ bytes }

/-- Writes to the standard error. -/
def toStderr (out : UnixOutput) (bytes : List UInt8) : UnixOutput :=
  { out with stderr := out.stderr ++ bytes }

/-- Writes a value that is an error with a code and a message, and tells whether it was one. -/
def emitError (out : UnixOutput) (value : Json) : UnixOutput × Bool :=
  let error := (value.get? "error").getD value
  match textField error "code" with
  | none => (out, false)
  | some code =>
    let out := { out with
      invalidInvocation := out.invalidInvocation || invalidInvocationCodes.contains code }
    if (error.get? "message").isNone || (value.get? "id").isSome then (out, false)
    else (out.toStderr (jsonLine value), true)

/-- Writes the data of an envelope. -/
def emitData (out : UnixOutput) (data : Json) : UnixOutput :=
  if textField data "type" = some "source_error" then
    out.toStderr (jsonLine ((data.get? "diagnostic").getD .null))
  else out.toStdout (jsonLine data)

/-- Writes a value that was read. -/
def emitValue (out : UnixOutput) (value : Json) : UnixOutput :=
  match out.emitError value with
  | (out, true) => out
  | (out, false) =>
    match textField value "type" with
    | some "chunk" => out.emitData ((value.get? "data").getD .null)
    | some "error" => out.toStderr (jsonLine value)
    | some "done" => out
    | _ =>
      match value.get? "ok" with
      | some (.bool false) => out.toStderr (jsonLine value)
      | _ => out.emitData value

/-- Waits for the rest of a text that breaks off, and writes any other text as it is. -/
def emitUnparsed (out : UnixOutput) (line : List UInt8) (error : JsonError) : UnixOutput :=
  let first := line.find? fun byte => !isAsciiWhitespace byte
  if error.isEof = true ∧ (first = some 0x7B ∨ first = some 0x5B) then
    { out with pending := line ++ [newline] }
  else out.toStdout (line ++ [newline])

section

variable [JsonReader]

/-- Reads what there is so far. -/
def emitLine (out : UnixOutput) : UnixOutput :=
  let line := out.pending
  let out := { out with pending := [] }
  match JsonReader.read line with
  | .ok value => out.emitValue value
  | .error error => out.emitUnparsed line error

/-- Takes bytes, one after the other. -/
def writeBytes : List UInt8 → UnixOutput → UnixOutput × Except String Unit
  | [], out => (out, .ok ())
  | byte :: bytes, out =>
    if byte = newline then writeBytes bytes out.emitLine
    else if maxLineBytes ≤ out.pending.length then (out, .error "output line exceeds 8 MiB")
    else writeBytes bytes { out with pending := out.pending ++ [byte] }

/-- Takes bytes, and tells how many it has taken. -/
def write (out : UnixOutput) (input : List UInt8) : UnixOutput × Except String ℕ :=
  match writeBytes input out with
  | (out, .ok ()) => (out, .ok input.length)
  | (out, .error error) => (out, .error error)

/-- Takes bytes in some writes; the first that fails is the last. -/
def writes : List (List UInt8) → UnixOutput → UnixOutput × Except String Unit
  | [], out => (out, .ok ())
  | input :: inputs, out =>
    match out.write input with
    | (out, .ok _) => writes inputs out
    | (out, .error error) => (out, .error error)

/-- Ends the output. -/
def finish (out : UnixOutput) : UnixOutput × Except String Unit :=
  let out := if out.pending = [] then out else out.emitLine
  if out.pending = [] then (out, .ok ()) else (out, .error "incomplete JSON output")

end

end UnixOutput

/-! ## Envelopes -/

/-- The kinds of envelopes. -/
inductive EnvelopeKind where
  | chunk
  | error
  | done
deriving DecidableEq, Repr

/-- The name of a kind. -/
def EnvelopeKind.name : EnvelopeKind → String
  | chunk => "chunk"
  | error => "error"
  | done => "done"

/-- An envelope: an object with its kind, data if it is a chunk, and an error only if it is one. -/
structure Envelope where
  kind : EnvelopeKind
  fields : List (String × Json)
  kind_eq : (obj fields).get? "type" = some (.str kind.name)
  data_isSome : kind = .chunk → ((obj fields).get? "data").isSome
  plain : kind ≠ .error → (obj fields).get? "error" = none ∧ (obj fields).get? "code" = none
  numeric : (obj fields).Numeric

namespace Envelope

variable (envelope : Envelope)

/-- The envelope as a value. -/
def value : Json := obj envelope.fields

/-- The data of a chunk. -/
def data : Json := (envelope.value.get? "data").getD .null

/-- The data that goes to the standard output. -/
def stdoutValue : Option Json :=
  match envelope.kind with
  | .chunk => if textField envelope.data "type" = some "source_error" then none else some envelope.data
  | .error => none
  | .done => none

/-- What goes to the standard error: the diagnostic of a source that has failed, or an error. -/
def stderrValue : Option Json :=
  match envelope.kind with
  | .chunk =>
    if textField envelope.data "type" = some "source_error" then
      some ((envelope.data.get? "diagnostic").getD .null)
    else none
  | .error => some envelope.value
  | .done => none

end Envelope

/-- An envelope as it is printed, on one line or over several. -/
structure Printed where
  envelope : Envelope
  pretty : Bool

/-- The bytes of a printed envelope. -/
def Printed.text (printed : Printed) : List UInt8 :=
  utf8Bytes (if printed.pretty then printed.envelope.value.pretty 0
    else printed.envelope.value.compact)

/-- An envelope has a field. -/
lemma Envelope.fields_ne_nil (envelope : Envelope) : envelope.fields ≠ [] := by
  intro h
  have hkind := envelope.kind_eq
  rw [h] at hkind
  cases hkind

/-- A printed envelope begins with a brace. -/
lemma Printed.exists_text_eq (printed : Printed) : ∃ rest, printed.text = 0x7B :: rest := by
  rw [Printed.text]
  split
  · obtain ⟨rest, hrest⟩ := utf8Bytes_pretty_obj printed.envelope.fields_ne_nil 0
    exact ⟨_, hrest⟩
  · exact utf8Bytes_compact_obj _

/-! ## Routing -/

namespace UnixOutput

/-- The text of a field does not depend on the numbers. -/
lemma textField_mapNumbers (f : String → String) (value : Json) (name : String) :
    textField (value.mapNumbers f) name = textField value name := by
  rw [textField, get?_mapNumbers, Option.bind_map]
  exact congrArg _ (funext fun value => asStr?_mapNumbers f value)

/-- Data goes to the one output or to the other. -/
lemma emitData_mapNumbers (out : UnixOutput) (f : String → String) (data : Json) :
    out.emitData (data.mapNumbers f) =
      if textField data "type" = some "source_error" then
        out.toStderr (jsonLine (((data.get? "diagnostic").getD .null).mapNumbers f))
      else out.toStdout (jsonLine (data.mapNumbers f)) := by
  have hdiagnostic : ((data.mapNumbers f).get? "diagnostic").getD .null =
      ((data.get? "diagnostic").getD .null).mapNumbers f := by
    rw [get?_mapNumbers]
    cases data.get? "diagnostic" <;> rfl
  rw [emitData, textField_mapNumbers, hdiagnostic]

/-- A value is written as an error, or left alone. -/
lemma emitError_cases (out : UnixOutput) (value : Json) :
    ∃ invalid, out.emitError value = ({ out with invalidInvocation := invalid }, false) ∨
      out.emitError value =
        (({ out with invalidInvocation := invalid } : UnixOutput).toStderr (jsonLine value), true) := by
  rw [emitError]
  dsimp only
  split
  · exact ⟨out.invalidInvocation, .inl rfl⟩
  · split
    · exact ⟨_, .inl rfl⟩
    · exact ⟨_, .inr rfl⟩

/-- A value without an error is not written as one. -/
lemma emitError_of_plain (out : UnixOutput) {value : Json} (herror : value.get? "error" = none)
    (hcode : value.get? "code" = none) : out.emitError value = (out, false) := by
  rw [emitError]
  dsimp only
  rw [herror, Option.getD_none, textField, hcode]
  rfl

/-- **An envelope that was read** goes where it should, with the numbers that were read. -/
lemma emitValue_envelope (out : UnixOutput) (f : String → String) (envelope : Envelope) :
    (out.emitValue (envelope.value.mapNumbers f)).stdout = out.stdout ++
        Lines.join newline (envelope.stdoutValue.toList.map fun v => jsonBytes (v.mapNumbers f)) ∧
      (out.emitValue (envelope.value.mapNumbers f)).stderr = out.stderr ++
        Lines.join newline (envelope.stderrValue.toList.map fun v => jsonBytes (v.mapNumbers f)) ∧
      (out.emitValue (envelope.value.mapNumbers f)).pending = out.pending := by
  have hname : textField (envelope.value.mapNumbers f) "type" = some envelope.kind.name := by
    rw [textField_mapNumbers, textField, Envelope.value, envelope.kind_eq]
    rfl
  cases hkind : envelope.kind with
  | error =>
    have hout : envelope.stdoutValue = none := by rw [Envelope.stdoutValue, hkind]
    have herr : envelope.stderrValue = some envelope.value := by rw [Envelope.stderrValue, hkind]
    rw [hkind] at hname
    rw [hout, herr, emitValue]
    obtain ⟨invalid, hcase | hcase⟩ := out.emitError_cases (envelope.value.mapNumbers f)
    · rw [hcase, hname]
      simp [EnvelopeKind.name, toStderr, jsonLine]
    · rw [hcase]
      simp [toStderr, jsonLine]
  | done =>
    have hout : envelope.stdoutValue = none := by rw [Envelope.stdoutValue, hkind]
    have herr : envelope.stderrValue = none := by rw [Envelope.stderrValue, hkind]
    obtain ⟨herror, hcode⟩ := envelope.plain (by rw [hkind]; decide)
    rw [hkind] at hname
    rw [hout, herr, emitValue, emitError_of_plain out
      (by rw [get?_mapNumbers, Envelope.value, herror]; rfl)
      (by rw [get?_mapNumbers, Envelope.value, hcode]; rfl), hname]
    simp [EnvelopeKind.name]
  | chunk =>
    obtain ⟨herror, hcode⟩ := envelope.plain (by rw [hkind]; decide)
    have hdata : ((envelope.value.mapNumbers f).get? "data").getD .null =
        envelope.data.mapNumbers f := by
      rw [get?_mapNumbers, Envelope.data]
      cases envelope.value.get? "data" <;> rfl
    rw [hkind] at hname
    rw [emitValue, emitError_of_plain out (by rw [get?_mapNumbers, Envelope.value, herror]; rfl)
      (by rw [get?_mapNumbers, Envelope.value, hcode]; rfl), hname, Envelope.stdoutValue,
      Envelope.stderrValue, hkind]
    simp only [EnvelopeKind.name, hdata, emitData_mapNumbers]
    split
    · simp [toStderr, jsonLine]
    · simp [toStdout, jsonLine]

/-! ## Bytes -/

section

variable [JsonReader]

/-- Bytes behind one another are taken one part after the other. -/
lemma writeBytes_append (first second : List UInt8) (out : UnixOutput) :
    writeBytes (first ++ second) out =
      match writeBytes first out with
      | (out, .ok ()) => writeBytes second out
      | (out, .error error) => (out, .error error) := by
  induction first generalizing out with
  | nil => rfl
  | cons byte bytes ih =>
    rw [List.cons_append, writeBytes, writeBytes]
    split
    · exact ih _
    · split
      · rfl
      · exact ih _

/-- **How the bytes are split** into writes does not matter. -/
theorem writes_eq (inputs : List (List UInt8)) (out : UnixOutput) :
    writes inputs out = writeBytes inputs.flatten out := by
  induction inputs generalizing out with
  | nil => rfl
  | cons input inputs ih =>
    rw [writes, List.flatten_cons, writeBytes_append, write]
    rcases writeBytes input out with ⟨out', error | ⟨⟩⟩
    · rfl
    · exact ih out'

/-- Nothing that was written is taken back. -/
lemma stdout_emitLine (out : UnixOutput) : out.stdout <+: out.emitLine.stdout := by
  have hdata : ∀ (invalid : Bool) (data : Json), out.stdout <+:
      (({ out with pending := [], invalidInvocation := invalid } : UnixOutput).emitData
        data).stdout := by
    intro invalid data
    rw [emitData]
    split
    · exact List.prefix_refl _
    · exact List.prefix_append _ _
  rw [emitLine]
  split
  · next value hvalue =>
    rw [emitValue]
    obtain ⟨invalid, hcase | hcase⟩ :=
      ({ out with pending := [] } : UnixOutput).emitError_cases value
    · rw [hcase]
      dsimp only
      split
      · exact hdata _ _
      · exact List.prefix_refl _
      · exact List.prefix_refl _
      · split
        · exact List.prefix_refl _
        · exact hdata _ _
    · rw [hcase]
      exact List.prefix_refl _
  · next error herror =>
    rw [emitUnparsed]
    dsimp only
    split
    · exact List.prefix_refl _
    · exact List.prefix_append _ _

/-- Nothing that was written is taken back by more bytes. -/
lemma stdout_writeBytes (bytes : List UInt8) (out : UnixOutput) :
    out.stdout <+: (writeBytes bytes out).1.stdout := by
  induction bytes generalizing out with
  | nil => exact List.prefix_refl _
  | cons byte bytes ih =>
    rw [writeBytes]
    split
    · exact out.stdout_emitLine.trans (ih _)
    · split
      · exact List.prefix_refl _
      · exact ih { out with pending := out.pending ++ [byte] }

/-- A text that breaks off is kept, if it begins with a brace. -/
lemma emitLine_of_eof {out : UnixOutput} {rest : List UInt8} (hpending : out.pending = 0x7B :: rest)
    {error : JsonError} (hread : JsonReader.read out.pending = .error error)
    (heof : error.isEof = true) :
    out.emitLine = { out with pending := out.pending ++ [newline] } := by
  have hfirst : out.pending.find? (fun byte => !isAsciiWhitespace byte) = some 0x7B := by
    rw [hpending]
    rfl
  rw [emitLine, hread]
  dsimp only
  rw [emitUnparsed, hfirst]
  simp [heof]

/-- A text that cannot be read for another reason is written as it is. -/
lemma emitLine_of_refused (out : UnixOutput) {error : JsonError}
    (hread : JsonReader.read out.pending = .error error) (heof : error.isEof = false) :
    out.emitLine = { out with
      stdout := out.stdout ++ (out.pending ++ [newline]), pending := [] } := by
  rw [emitLine, hread]
  dsimp only
  rw [emitUnparsed]
  simp [heof, toStdout]

/-- **Bytes are kept** as long as the text breaks off at every new line in them.

**Proof sketch.** Induction on the bytes that are still to come. A new line finds a text that breaks
off and begins with a brace, so the text and the new line are kept; any other byte is kept because
the text is not too long. -/
lemma writeBytes_keeps (out : UnixOutput) (bytes before : List UInt8)
    (hbrace : ∃ rest, before ++ bytes = 0x7B :: rest) (hsize : (before ++ bytes).length ≤ maxLineBytes)
    (heof : ∀ first, first ++ [newline] <+: before ++ bytes →
      ∃ error, JsonReader.read first = .error error ∧ error.isEof = true) :
    writeBytes bytes { out with pending := before } =
      ({ out with pending := before ++ bytes }, .ok ()) := by
  induction bytes generalizing before with
  | nil => rw [List.append_nil, writeBytes]
  | cons byte bytes ih =>
    have happend : before ++ byte :: bytes = (before ++ [byte]) ++ bytes := by simp
    have hnext := ih (before ++ [byte]) (by rw [← happend]; exact hbrace)
      (by rw [← happend]; exact hsize) (by rw [← happend]; exact heof)
    rw [writeBytes, happend]
    by_cases hline : byte = newline
    · obtain ⟨rest, hrest⟩ := hbrace
      obtain ⟨error, hread, hiseof⟩ := heof before ⟨bytes, by rw [happend, hline]⟩
      have hbefore : ∃ tail, before = 0x7B :: tail := by
        cases before with
        | nil =>
          rw [List.nil_append, List.cons.injEq] at hrest
          exact absurd (hline.symm.trans hrest.1) (by decide)
        | cons first tail =>
          rw [List.cons_append, List.cons.injEq] at hrest
          exact ⟨tail, by rw [hrest.1]⟩
      obtain ⟨tail, htail⟩ := hbefore
      have hemit : ({ out with pending := before } : UnixOutput).emitLine =
          { out with pending := before ++ [newline] } := emitLine_of_eof htail hread hiseof
      rw [if_pos hline, hemit, ← hline, hnext]
    · have hroom : ¬ maxLineBytes ≤ before.length := by
        rw [List.length_append, List.length_cons] at hsize
        omega
      rw [if_neg hline, if_neg hroom, hnext]

end

end UnixOutput

/-! ## What the reader says -/

section

variable [JsonReader]

/-- **What the reader says** about a printed value. If it nests no deeper than allowed, it is read
with its numbers, and a text that breaks off before its end is reported as such; else the text
breaks off up to some byte, and is refused from there on. -/
structure Documented (text : List UInt8) (value : Json) : Prop where
  read : value.depth ≤ Json.nestingLimit →
    JsonReader.read text = .ok (value.mapNumbers JsonReader.number)
  eof : value.depth ≤ Json.nestingLimit → ∀ first, first <+: text → first ≠ text →
    ∃ error, JsonReader.read first = .error error ∧ error.isEof = true
  refused : Json.nestingLimit < value.depth → ∃ limit, 0 < limit ∧ limit ≤ text.length ∧
    ∀ first, first <+: text → ∃ error, JsonReader.read first = .error error ∧
      (error.isEof = true ↔ first.length < limit)

namespace Printed

variable {printed : Printed}

/-- **An envelope that can be read** is written where it should. -/
lemma writeBytes_of_le (hdoc : Documented printed.text printed.envelope.value)
    (hsize : printed.text.length ≤ maxLineBytes)
    (hdepth : printed.envelope.value.depth ≤ Json.nestingLimit) {out : UnixOutput}
    (hclean : out.pending = []) :
    UnixOutput.writeBytes (printed.text ++ [newline]) out =
      (out.emitValue (printed.envelope.value.mapNumbers JsonReader.number), .ok ()) := by
  have hkeeps := out.writeBytes_keeps printed.text [] printed.exists_text_eq hsize
    fun first hfirst => hdoc.eof hdepth first ((List.prefix_append _ _).trans hfirst) fun heq => by
      have hlength := hfirst.length_le
      rw [heq, List.nil_append, List.length_append, List.length_singleton] at hlength
      omega
  have hsame : ({ out with pending := [] } : UnixOutput) = out := by rw [← hclean]
  rw [hsame, List.nil_append] at hkeeps
  rw [UnixOutput.writeBytes_append, hkeeps]
  dsimp only
  rw [UnixOutput.writeBytes, if_pos rfl, UnixOutput.writeBytes, UnixOutput.emitLine,
    hdoc.read hdepth]
  dsimp only
  rw [hsame]

/-- An envelope on one line that nests too deep is written as it is. -/
lemma writeBytes_of_lt_of_line (hdoc : Documented printed.text printed.envelope.value)
    (hsize : printed.text.length ≤ maxLineBytes)
    (hdepth : Json.nestingLimit < printed.envelope.value.depth) (hline : newline ∉ printed.text)
    {out : UnixOutput} (hclean : out.pending = []) :
    UnixOutput.writeBytes (printed.text ++ [newline]) out =
      ({ out with stdout := out.stdout ++ (printed.text ++ [newline]) }, .ok ()) := by
  have hkeeps := out.writeBytes_keeps printed.text [] printed.exists_text_eq hsize
    fun first hfirst => absurd (hfirst.subset (by simp)) hline
  have hsame : ({ out with pending := [] } : UnixOutput) = out := by rw [← hclean]
  rw [hsame, List.nil_append] at hkeeps
  obtain ⟨limit, -, hlimit, hrefused⟩ := hdoc.refused hdepth
  obtain ⟨error, hread, heof⟩ := hrefused printed.text (List.prefix_refl _)
  have hnot : error.isEof = false := by
    rw [Bool.eq_false_iff, Ne, heof]
    omega
  rw [UnixOutput.writeBytes_append, hkeeps]
  dsimp only
  rw [UnixOutput.writeBytes, if_pos rfl, UnixOutput.writeBytes,
    UnixOutput.emitLine_of_refused { out with pending := printed.text } hread hnot]
  dsimp only
  rw [← hclean]

/-- An envelope over several lines that nests too deep leaves a line with a brace alone.

**Proof sketch.** At the first new line behind the byte from which on the text is refused, all that
was kept is written as it is, and it begins with a brace and a new line. -/
lemma stdout_of_lt_of_pretty (hdoc : Documented printed.text printed.envelope.value)
    (hsize : printed.text.length ≤ maxLineBytes)
    (hdepth : Json.nestingLimit < printed.envelope.value.depth) (hpretty : printed.pretty = true)
    {out : UnixOutput} (hclean : out.pending = []) :
    out.stdout ++ [0x7B, newline] <+:
      (UnixOutput.writeBytes (printed.text ++ [newline]) out).1.stdout := by
  obtain ⟨limit, hpos, hlimit, hrefused⟩ := hdoc.refused hdepth
  obtain ⟨rest, hrest⟩ : ∃ rest, printed.text = 0x7B :: newline :: rest := by
    rw [text, if_pos hpretty]
    exact utf8Bytes_pretty_obj printed.envelope.fields_ne_nil 0
  -- the first new line behind the byte from which on the text is refused
  obtain ⟨tail, after, htail, hfree⟩ : ∃ tail after,
      (printed.text ++ [newline]).drop limit = tail ++ newline :: after ∧ newline ∉ tail := by
    refine List.eq_append_cons_of_mem ?_
    rw [List.drop_append_of_le_length hlimit]
    exact List.mem_append_right _ (List.mem_singleton_self _)
  set before := printed.text.take limit ++ tail with hbefore
  have htake : (printed.text.take limit).length = limit := by
    rw [List.length_take, Nat.min_eq_left hlimit]
  have hall : printed.text ++ [newline] = before ++ newline :: after := by
    have hfront : (printed.text ++ [newline]).take limit = printed.text.take limit :=
      List.take_append_of_le_length hlimit
    rw [hbefore, List.append_assoc, ← htail, ← hfront, List.take_append_drop]
  have hlow : limit ≤ before.length := by
    rw [hbefore, List.length_append, htake]
    omega
  have hstarts : before <+: printed.text := by
    refine List.prefix_of_prefix_length_le ⟨newline :: after, hall.symm⟩ (List.prefix_append _ _) ?_
    have hlength := congrArg List.length hall
    simp only [List.length_append, List.length_cons, List.length_nil] at hlength
    omega
  have hbrace : ∃ others, before = 0x7B :: others ∧
      [0x7B, newline] <+: before ++ [newline] := by
    obtain ⟨suffix, hsuffix⟩ := hstarts
    rw [hrest] at hsuffix
    cases hcases : before with
    | nil => simp [hcases] at hlow; omega
    | cons first others =>
      rw [hcases, List.cons_append, List.cons.injEq] at hsuffix
      obtain ⟨rfl, hothers⟩ := hsuffix
      refine ⟨others, rfl, ?_⟩
      cases others with
      | nil => exact List.prefix_refl _
      | cons second others =>
        rw [List.cons_append, List.cons.injEq] at hothers
        rw [hothers.1]
        exact ⟨others ++ [newline], rfl⟩
  obtain ⟨others, hothers, hline⟩ := hbrace
  have hkeeps := out.writeBytes_keeps before [] ⟨others, hothers⟩
    (hstarts.length_le.trans hsize) fun first hfirst => by
      rw [List.nil_append] at hfirst
      obtain ⟨error, hread, heof⟩ :=
        hrefused first (((List.prefix_append _ _).trans hfirst).trans hstarts)
      refine ⟨error, hread, heof.mpr ?_⟩
      by_contra hge
      obtain ⟨more, hmore⟩ := hfirst
      have hdrop := congrArg (List.drop limit) hmore
      rw [hbefore, List.drop_left' htake, List.append_assoc,
        List.drop_append_of_le_length (by omega)] at hdrop
      exact hfree (by rw [← hdrop]; simp)
  have hsame : ({ out with pending := [] } : UnixOutput) = out := by rw [← hclean]
  rw [hsame, List.nil_append] at hkeeps
  obtain ⟨error, hread, heof⟩ := hrefused before hstarts
  have hnot : error.isEof = false := by
    rw [Bool.eq_false_iff, Ne, heof]
    omega
  have hemit := UnixOutput.emitLine_of_refused { out with pending := before } hread hnot
  rw [hall, UnixOutput.writeBytes_append, hkeeps]
  dsimp only
  rw [UnixOutput.writeBytes, if_pos rfl, hemit]
  refine List.IsPrefix.trans ?_ (UnixOutput.stdout_writeBytes _ _)
  exact (List.prefix_append_right_inj _).mpr hline

/-- The lines that an envelope comes to, unless it nests too deep over several lines. -/
def written (printed : Printed) : List (List UInt8) × List (List UInt8) :=
  if printed.envelope.value.depth ≤ Json.nestingLimit then
    (printed.envelope.stdoutValue.toList.map fun value =>
        jsonBytes (value.mapNumbers JsonReader.number),
      printed.envelope.stderrValue.toList.map fun value =>
        jsonBytes (value.mapNumbers JsonReader.number))
  else ([printed.text], [])

/-- The envelope nests too deep, and is printed over several lines. -/
def Torn (printed : Printed) : Prop :=
  Json.nestingLimit < printed.envelope.value.depth ∧ printed.pretty = true

omit [JsonReader] in
/-- An envelope on one line has no new line in it. -/
lemma newline_not_mem_text (hpretty : printed.pretty = false) : newline ∉ printed.text := by
  rw [text, hpretty]
  exact newline_not_mem_utf8Bytes (oneLine_compact printed.envelope.numeric)

/-- **An envelope that is not torn** comes to its lines. -/
lemma writeBytes_written (hdoc : Documented printed.text printed.envelope.value)
    (hsize : printed.text.length ≤ maxLineBytes) (htorn : ¬ printed.Torn) {out : UnixOutput}
    (hclean : out.pending = []) :
    ∃ out', UnixOutput.writeBytes (printed.text ++ [newline]) out = (out', .ok ()) ∧
      out'.stdout = out.stdout ++ Lines.join newline printed.written.1 ∧
      out'.stderr = out.stderr ++ Lines.join newline printed.written.2 ∧ out'.pending = [] := by
  by_cases hdepth : printed.envelope.value.depth ≤ Json.nestingLimit
  · obtain ⟨hstdout, hstderr, hpending⟩ :=
      out.emitValue_envelope JsonReader.number printed.envelope
    rw [written, if_pos hdepth]
    exact ⟨_, writeBytes_of_le hdoc hsize hdepth hclean, hstdout, hstderr, hpending.trans hclean⟩
  · have hpretty : printed.pretty = false := by
      rw [Bool.eq_false_iff]
      exact fun h => htorn ⟨by omega, h⟩
    rw [written, if_neg hdepth]
    exact ⟨_, writeBytes_of_lt_of_line hdoc hsize (by omega) (newline_not_mem_text hpretty) hclean,
      by simp, by simp, hclean⟩

end Printed

end

/-! ## Values that are written -/

namespace Envelope

variable (envelope : Envelope)

/-- The data of an envelope is numeric. -/
lemma numeric_data : envelope.data.Numeric := by
  rw [data]
  cases hdata : envelope.value.get? "data" with
  | none => exact fun _ h => absurd h List.not_mem_nil
  | some found => exact envelope.numeric.get? hdata

/-- What goes to the standard output is numeric, and shorter than the envelope. -/
lemma of_stdoutValue {value : Json} (h : envelope.stdoutValue = some value) :
    value.Numeric ∧ value.byteLength < envelope.value.byteLength := by
  rw [stdoutValue] at h
  cases hkind : envelope.kind with
  | error => rw [hkind] at h; cases h
  | done => rw [hkind] at h; cases h
  | chunk =>
    rw [hkind] at h
    dsimp only at h
    split at h
    · cases h
    · cases h
      obtain ⟨found, hfound⟩ := Option.isSome_iff_exists.mp (envelope.data_isSome hkind)
      have hdata : envelope.data = found := by rw [data, value, hfound, Option.getD_some]
      exact ⟨envelope.numeric_data, hdata ▸ byteLength_lt_of_get? hfound⟩

/-- What goes to the standard error is numeric. -/
lemma numeric_stderrValue {value : Json} (h : envelope.stderrValue = some value) :
    value.Numeric := by
  rw [stderrValue] at h
  cases hkind : envelope.kind with
  | error =>
    rw [hkind] at h
    cases h
    exact envelope.numeric
  | done => rw [hkind] at h; cases h
  | chunk =>
    rw [hkind] at h
    dsimp only at h
    split at h
    · cases h
      cases hdiagnostic : envelope.data.get? "diagnostic" with
      | none => exact fun _ h => absurd h List.not_mem_nil
      | some found => exact envelope.numeric_data.get? hdiagnostic
    · cases h

end Envelope

/-- The line of a numeric value has no new line in it. -/
lemma newline_not_mem_jsonBytes {value : Json} (h : value.Numeric) : newline ∉ jsonBytes value :=
  newline_not_mem_utf8Bytes (oneLine_compact h)

section

variable [JsonReader]

/-- The lines that an envelope comes to have no new line in them. -/
lemma Printed.newline_not_mem_written {printed : Printed} (htorn : ¬ printed.Torn) :
    (∀ line ∈ printed.written.1, newline ∉ line) ∧ ∀ line ∈ printed.written.2, newline ∉ line := by
  rw [written]
  split
  · constructor
    · intro line hline
      obtain ⟨value, hvalue, rfl⟩ := List.mem_map.mp hline
      exact newline_not_mem_jsonBytes (((printed.envelope.of_stdoutValue
        (Option.mem_toList.mp hvalue)).1).mapNumbers JsonReader.number_isNumeral)
    · intro line hline
      obtain ⟨value, hvalue, rfl⟩ := List.mem_map.mp hline
      exact newline_not_mem_jsonBytes ((printed.envelope.numeric_stderrValue
        (Option.mem_toList.mp hvalue)).mapNumbers JsonReader.number_isNumeral)
  · next hdepth =>
    refine ⟨fun line hline => ?_, by simp⟩
    obtain rfl := List.mem_singleton.mp hline
    refine newline_not_mem_text ?_
    rw [Bool.eq_false_iff]
    exact fun h => htorn ⟨by omega, h⟩

/-! ## Sequences of envelopes -/

/-- The bytes of printed envelopes, each with the end of its line. -/
def printedBytes (envelopes : List Printed) : List UInt8 :=
  Lines.join newline (envelopes.map Printed.text)

/-- **Envelopes that are not torn** come to their lines, one after the other. -/
lemma writeBytes_printed {envelopes : List Printed}
    (hdoc : ∀ printed ∈ envelopes, Documented printed.text printed.envelope.value)
    (hsize : ∀ printed ∈ envelopes, printed.text.length ≤ maxLineBytes)
    (htorn : ∀ printed ∈ envelopes, ¬ printed.Torn) {out : UnixOutput} (hclean : out.pending = []) :
    ∃ out', UnixOutput.writeBytes (printedBytes envelopes) out = (out', .ok ()) ∧
      out'.stdout = out.stdout ++
        Lines.join newline (envelopes.flatMap fun printed => printed.written.1) ∧
      out'.stderr = out.stderr ++
        Lines.join newline (envelopes.flatMap fun printed => printed.written.2) ∧
      out'.pending = [] := by
  induction envelopes generalizing out with
  | nil => exact ⟨out, rfl, by simp, by simp, hclean⟩
  | cons printed envelopes ih =>
    obtain ⟨out', hwrite, hstdout, hstderr, hclean'⟩ :=
      Printed.writeBytes_written (hdoc printed (List.mem_cons_self ..))
        (hsize printed (List.mem_cons_self ..)) (htorn printed (List.mem_cons_self ..)) hclean
    obtain ⟨out'', hrest, hstdout', hstderr', hclean''⟩ :=
      ih (fun p hp => hdoc p (List.mem_cons_of_mem _ hp))
        (fun p hp => hsize p (List.mem_cons_of_mem _ hp))
        (fun p hp => htorn p (List.mem_cons_of_mem _ hp)) hclean'
    refine ⟨out'', ?_, ?_, ?_, hclean''⟩
    · have hbytes : printedBytes (printed :: envelopes) =
          (printed.text ++ [newline]) ++ printedBytes envelopes := by
        simp [printedBytes]
      rw [hbytes, UnixOutput.writeBytes_append, hwrite]
      exact hrest
    · rw [hstdout', hstdout, List.flatMap_cons, Lines.join_append, List.append_assoc]
    · rw [hstderr', hstderr, List.flatMap_cons, Lines.join_append, List.append_assoc]

/-- **A torn envelope** leaves a line with a brace alone. -/
lemma stdout_of_torn {envelopes : List Printed}
    (hdoc : ∀ printed ∈ envelopes, Documented printed.text printed.envelope.value)
    (hsize : ∀ printed ∈ envelopes, printed.text.length ≤ maxLineBytes)
    (htorn : ∃ printed ∈ envelopes, printed.Torn) {out : UnixOutput} (hclean : out.pending = []) :
    ∃ lines, (∀ line ∈ lines, newline ∉ line) ∧
      out.stdout ++ (Lines.join newline lines ++ [0x7B, newline]) <+:
        (UnixOutput.writeBytes (printedBytes envelopes) out).1.stdout := by
  induction envelopes generalizing out with
  | nil => simp at htorn
  | cons printed envelopes ih =>
    have hbytes : printedBytes (printed :: envelopes) =
        (printed.text ++ [newline]) ++ printedBytes envelopes := by
      simp [printedBytes]
    have hdoc' := hdoc printed (List.mem_cons_self ..)
    have hsize' := hsize printed (List.mem_cons_self ..)
    rw [hbytes, UnixOutput.writeBytes_append]
    by_cases hfirst : printed.Torn
    · refine ⟨[], by simp, ?_⟩
      have hbrace := Printed.stdout_of_lt_of_pretty hdoc' hsize' hfirst.1 hfirst.2 hclean
      rw [Lines.join_nil, List.nil_append]
      split
      · next out' hwrite =>
        rw [hwrite] at hbrace
        exact hbrace.trans (UnixOutput.stdout_writeBytes _ _)
      · next out' error hwrite =>
        rw [hwrite] at hbrace
        exact hbrace
    · obtain ⟨out', hwrite, hstdout, -, hclean'⟩ :=
        Printed.writeBytes_written hdoc' hsize' hfirst hclean
      obtain ⟨other, hother, hotherTorn⟩ := htorn
      have hmem : other ∈ envelopes := by
        rcases List.mem_cons.mp hother with rfl | hmem
        · exact absurd hotherTorn hfirst
        · exact hmem
      obtain ⟨lines, hlines, hstarts⟩ := ih (fun p hp => hdoc p (List.mem_cons_of_mem _ hp))
        (fun p hp => hsize p (List.mem_cons_of_mem _ hp)) ⟨other, hmem, hotherTorn⟩ hclean'
      refine ⟨printed.written.1 ++ lines, fun line hline => ?_, ?_⟩
      · rcases List.mem_append.mp hline with hline | hline
        · exact (Printed.newline_not_mem_written hfirst).1 line hline
        · exact hlines line hline
      · rw [hwrite]
        rw [hstdout, List.append_assoc, ← List.append_assoc (Lines.join _ _),
          ← Lines.join_append] at hstarts
        exact hstarts

/-- What goes to the standard output, line by line. -/
def stdoutLines (envelopes : List Printed) : List (List UInt8) :=
  (envelopes.filterMap fun printed => printed.envelope.stdoutValue).map jsonBytes

/-- What goes to the standard error, line by line. -/
def stderrLines (envelopes : List Printed) : List (List UInt8) :=
  (envelopes.filterMap fun printed => printed.envelope.stderrValue).map jsonBytes

/-- Every write succeeds, each envelope comes to the lines that it should, and the output ends with
nothing left. -/
def Framed (envelopes : List Printed) (inputs : List (List UInt8)) : Prop :=
  ∃ out, UnixOutput.writes inputs .new = (out, .ok ()) ∧
    out.stdout = Lines.join newline (stdoutLines envelopes) ∧
    out.stderr = Lines.join newline (stderrLines envelopes) ∧
    out.pending = [] ∧ out.finish = (out, .ok ())

/-- The envelope can be read, and what is written of it is the same with the numbers that are read.
-/
def Printed.Readable (printed : Printed) : Prop :=
  printed.envelope.value.depth ≤ Json.nestingLimit ∧
    ∀ value, printed.envelope.stdoutValue = some value ∨ printed.envelope.stderrValue = some value →
      (value.mapNumbers JsonReader.number).compact = value.compact

omit [JsonReader] in
/-- The lines of some values, envelope by envelope. -/
lemma map_filterMap_eq_flatMap (f : Printed → Option Json) (envelopes : List Printed) :
    (envelopes.filterMap f).map jsonBytes =
      envelopes.flatMap fun printed => (f printed).toList.map jsonBytes := by
  induction envelopes with
  | nil => rfl
  | cons printed envelopes ih =>
    rw [List.flatMap_cons, ← ih]
    cases h : f printed with
    | none => rw [List.filterMap_cons_none h]; rfl
    | some value => rw [List.filterMap_cons_some h]; rfl

/-- A readable envelope comes to the lines that it should. -/
lemma Printed.Readable.written_eq {printed : Printed} (h : printed.Readable) :
    printed.written = (printed.envelope.stdoutValue.toList.map jsonBytes,
      printed.envelope.stderrValue.toList.map jsonBytes) := by
  rw [written, if_pos h.1]
  refine Prod.ext (List.map_congr_left fun value hvalue => ?_)
    (List.map_congr_left fun value hvalue => ?_)
  · exact congrArg utf8Bytes (h.2 value (.inl (Option.mem_toList.mp hvalue)))
  · exact congrArg utf8Bytes (h.2 value (.inr (Option.mem_toList.mp hvalue)))

/-- An envelope that comes to the data that it should does not nest too deep. -/
lemma Printed.depth_le_of_written_eq {printed : Printed} (htorn : ¬ printed.Torn)
    (hstdout : printed.written.1 = printed.envelope.stdoutValue.toList.map jsonBytes) :
    printed.envelope.value.depth ≤ Json.nestingLimit := by
  by_contra hdepth
  rw [written, if_neg hdepth] at hstdout
  have hpretty : printed.pretty = false := by
    rw [Bool.eq_false_iff]
    exact fun h => htorn ⟨by omega, h⟩
  cases hvalue : printed.envelope.stdoutValue with
  | none => simp [hvalue] at hstdout
  | some value =>
    rw [hvalue] at hstdout
    -- the whole envelope would be as long as its data
    have htext : printed.text = jsonBytes value := by simpa using hstdout
    have hshort := (printed.envelope.of_stdoutValue hvalue).2
    rw [text, hpretty] at htext
    have hlength := congrArg List.length htext
    rw [jsonBytes, length_utf8Bytes, length_utf8Bytes] at hlength
    rw [byteLength, byteLength] at hshort
    simp only [Bool.false_eq_true, ↓reduceIte] at hlength
    omega

/-- An envelope that comes to the lines that it should is readable. -/
lemma Printed.readable_of_written_eq {printed : Printed}
    (hdepth : printed.envelope.value.depth ≤ Json.nestingLimit)
    (hstdout : printed.written.1 = printed.envelope.stdoutValue.toList.map jsonBytes)
    (hstderr : printed.written.2 = printed.envelope.stderrValue.toList.map jsonBytes) :
    printed.Readable := by
  rw [written, if_pos hdepth] at hstdout hstderr
  refine ⟨hdepth, fun value hvalue => utf8Bytes_injective ?_⟩
  change jsonBytes (value.mapNumbers JsonReader.number) = jsonBytes value
  rcases hvalue with hvalue | hvalue
  · rw [hvalue] at hstdout
    simpa using hstdout
  · rw [hvalue] at hstderr
    simpa using hstderr

section Framing

variable {envelopes : List Printed} {inputs : List (List UInt8)}
  (hbytes : inputs.flatten = printedBytes envelopes)
  (hsize : ∀ printed ∈ envelopes, printed.text.length ≤ maxLineBytes)
  (hdoc : ∀ printed ∈ envelopes, Documented printed.text printed.envelope.value)

omit [JsonReader] in
/-- The lines of envelopes have no new line in them. -/
lemma newline_not_mem_lines (envelopes : List Printed) :
    (∀ line ∈ stdoutLines envelopes, newline ∉ line) ∧
      ∀ line ∈ stderrLines envelopes, newline ∉ line := by
  constructor
  · intro line hline
    obtain ⟨value, hvalue, rfl⟩ := List.mem_map.mp hline
    obtain ⟨printed, -, hprinted⟩ := List.mem_filterMap.mp hvalue
    exact newline_not_mem_jsonBytes (printed.envelope.of_stdoutValue hprinted).1
  · intro line hline
    obtain ⟨value, hvalue, rfl⟩ := List.mem_map.mp hline
    obtain ⟨printed, -, hprinted⟩ := List.mem_filterMap.mp hvalue
    exact newline_not_mem_jsonBytes (printed.envelope.numeric_stderrValue hprinted)

include hbytes hsize hdoc

/-- Readable envelopes are framed. -/
lemma framed_of_readable (h : ∀ printed ∈ envelopes, printed.Readable) :
    Framed envelopes inputs := by
  have htorn : ∀ printed ∈ envelopes, ¬ printed.Torn := fun printed hprinted ht =>
    absurd (h printed hprinted).1 (Nat.not_le.mpr ht.1)
  have hclean : UnixOutput.new.pending = [] := rfl
  obtain ⟨out, hwrite, hstdout, hstderr, hpending⟩ := writeBytes_printed hdoc hsize htorn hclean
  refine ⟨out, by rw [UnixOutput.writes_eq, hbytes, hwrite], ?_, ?_, hpending, ?_⟩
  · rw [hstdout, stdoutLines, map_filterMap_eq_flatMap]
    exact congrArg (Lines.join newline)
      (List.flatMap_congr fun printed hprinted => by rw [(h printed hprinted).written_eq])
  · rw [hstderr, stderrLines, map_filterMap_eq_flatMap]
    exact congrArg (Lines.join newline)
      (List.flatMap_congr fun printed hprinted => by rw [(h printed hprinted).written_eq])
  · rw [UnixOutput.finish, if_pos hpending, if_pos hpending]

/-- Framed envelopes are not torn: no line of data is a brace alone. -/
lemma not_torn_of_framed (h : Framed envelopes inputs) :
    ∀ printed ∈ envelopes, ¬ printed.Torn := by
  intro printed hprinted ht
  obtain ⟨out, hwrite, hstdout, -⟩ := h
  have hclean : UnixOutput.new.pending = [] := rfl
  obtain ⟨lines, hlines, rest, hrest⟩ :=
    stdout_of_torn hdoc hsize ⟨printed, hprinted, ht⟩ hclean
  rw [UnixOutput.writes_eq, hbytes] at hwrite
  rw [hwrite] at hrest
  rw [hstdout] at hrest
  have hjoin : Lines.join newline (stdoutLines envelopes) =
      Lines.join newline lines ++ ([0x7B, newline] ++ rest) := by
    rw [← hrest]
    simp [UnixOutput.new]
  obtain ⟨more, hmore, hbrace⟩ :=
    Lines.exists_of_join_eq_append (newline_not_mem_lines envelopes).1 hlines hjoin
  cases more with
  | nil => simp at hbrace
  | cons line more =>
    have hmem : line ∈ stdoutLines envelopes := by simp [hmore]
    rw [Lines.join_cons] at hbrace
    have hline : line = [0x7B] :=
      (Lines.append_mark_inj ((newline_not_mem_lines envelopes).1 line hmem) (by decide)
        (hbrace.trans (List.cons_append ..))).1
    obtain ⟨value, hvalue, rfl⟩ := List.mem_map.mp hmem
    obtain ⟨other, -, hother⟩ := List.mem_filterMap.mp hvalue
    exact utf8Bytes_compact_ne_brace (other.envelope.of_stdoutValue hother).1 hline

/-- Framed envelopes are readable.

**Proof sketch.** None is torn, so each comes to its lines. An envelope comes to at least as many
lines of data as it should, so each comes to just these; then none nests too deep, and the same
holds of the diagnostics. -/
lemma readable_of_framed (h : Framed envelopes inputs) :
    ∀ printed ∈ envelopes, printed.Readable := by
  have htorn := not_torn_of_framed hbytes hsize hdoc h
  obtain ⟨out, hwrite, hstdout, hstderr, -⟩ := h
  have hclean : UnixOutput.new.pending = [] := rfl
  obtain ⟨out', hwrite', hstdout', hstderr', -⟩ := writeBytes_printed hdoc hsize htorn hclean
  rw [UnixOutput.writes_eq, hbytes, hwrite'] at hwrite
  obtain rfl : out' = out := (Prod.mk.inj hwrite).1
  have hfree := newline_not_mem_lines envelopes
  have hcomes : ∀ printed ∈ envelopes, printed.written.1 =
      printed.envelope.stdoutValue.toList.map jsonBytes := by
    refine Lines.eq_of_flatMap_eq (fun printed _ => ?_) ?_
    · rw [Printed.written]
      split
      · simp
      · cases printed.envelope.stdoutValue <;> simp
    · have hjoin : Lines.join newline (envelopes.flatMap fun printed => printed.written.1) =
          Lines.join newline (stdoutLines envelopes) := hstdout'.symm.trans hstdout
      rw [stdoutLines, map_filterMap_eq_flatMap] at hfree hjoin
      refine Lines.join_injective (fun line hline => ?_) hfree.1 hjoin
      obtain ⟨printed, hprinted, hmem⟩ := List.mem_flatMap.mp hline
      exact (Printed.newline_not_mem_written (htorn printed hprinted)).1 line hmem
  have hdepth : ∀ printed ∈ envelopes, printed.envelope.value.depth ≤ Json.nestingLimit :=
    fun printed hprinted => Printed.depth_le_of_written_eq (htorn printed hprinted)
      (hcomes printed hprinted)
  have hcomes' : ∀ printed ∈ envelopes, printed.written.2 =
      printed.envelope.stderrValue.toList.map jsonBytes := by
    refine Lines.eq_of_flatMap_eq (fun printed hprinted => ?_) ?_
    · rw [Printed.written, if_pos (hdepth printed hprinted)]
      simp
    · have hjoin : Lines.join newline (envelopes.flatMap fun printed => printed.written.2) =
          Lines.join newline (stderrLines envelopes) := hstderr'.symm.trans hstderr
      rw [stderrLines, map_filterMap_eq_flatMap] at hfree hjoin
      refine Lines.join_injective (fun line hline => ?_) hfree.2 hjoin
      obtain ⟨printed, hprinted, hmem⟩ := List.mem_flatMap.mp hline
      exact (Printed.newline_not_mem_written (htorn printed hprinted)).2 line hmem
  exact fun printed hprinted => Printed.readable_of_written_eq (hdepth printed hprinted)
    (hcomes printed hprinted) (hcomes' printed hprinted)

/-- **The output is framed**: its lines have no new line in them, and each write succeeds, every
envelope comes to the lines that it should, and nothing is left at the end, exactly when every
envelope can be read and its numbers are read as they are printed.

**Proof sketch.** The split into writes does not matter (`UnixOutput.writes_eq`). A readable envelope
is kept up to the end of its text and then read, so it comes to its lines. For the converse, an
envelope over several lines that nests too deep leaves a line with a brace alone, which no data is;
and one on a single line is written as a whole, where its data would be shorter. -/
theorem unix_output_framed_iff :
    (∀ line ∈ stdoutLines envelopes ++ stderrLines envelopes, newline ∉ line) ∧
      (Framed envelopes inputs ↔ ∀ printed ∈ envelopes, printed.Readable) := by
  obtain ⟨hstdout, hstderr⟩ := newline_not_mem_lines envelopes
  refine ⟨fun line hline => ?_, readable_of_framed hbytes hsize hdoc,
    framed_of_readable hbytes hsize hdoc⟩
  rcases List.mem_append.mp hline with hline | hline
  · exact hstdout line hline
  · exact hstderr line hline

end Framing

end

/-- A reader that knows one text only, and takes all other ones to break off. -/
@[reducible] def textReader (text : List UInt8) (value : Json) : JsonReader where
  read bytes := if bytes = text then .ok value else .error ⟨true⟩
  number := id
  number_isNumeral := fun _ h => h

/-- A chunk with a number. -/
def smallChunk : Envelope where
  kind := .chunk
  fields := [("data", .num "1"), ("type", .str "chunk")]
  kind_eq := rfl
  data_isSome := fun _ => rfl
  plain := fun _ => ⟨rfl, rfl⟩
  numeric := by
    intro literal hliteral
    obtain rfl : literal = "1" := by simpa [literals, literalsFields] using hliteral
    refine ⟨by decide, fun c hc => .inl ?_⟩
    obtain rfl : c = '1' := by simpa using hc
    rfl

/-- A chunk with a number is framed, byte by byte. -/
theorem unix_output_framed_iff_bytes :
    letI : JsonReader := textReader (utf8Bytes smallChunk.value.compact) smallChunk.value
    Framed [⟨smallChunk, false⟩]
      ((printedBytes [⟨smallChunk, false⟩]).map fun byte => [byte]) := by
  let text := utf8Bytes smallChunk.value.compact
  let _ : JsonReader := textReader text smallChunk.value
  have hbytes : ((printedBytes [⟨smallChunk, false⟩]).map fun byte => [byte]).flatten =
      printedBytes [⟨smallChunk, false⟩] := by rw [← List.flatMap_def, List.flatMap_singleton']
  refine (unix_output_framed_iff hbytes ?_ ?_).2.mpr ?_
  all_goals
    intro printed hprinted
    obtain rfl := List.mem_singleton.mp hprinted
  · decide
  · exact
    { read := fun _ => if_pos rfl
      eof := fun _ first _ hne => ⟨⟨true⟩, if_neg hne, rfl⟩
      refused := fun h => absurd h (by decide) }
  · refine ⟨by decide, fun value hvalue => ?_⟩
    rcases hvalue with hvalue | hvalue
    · cases hvalue
      rfl
    · cases hvalue

/-- A reader that refuses more than 127 brackets and braces, and takes all other texts to break
off. -/
@[reducible] def limitedReader : JsonReader where
  read bytes := .error ⟨bytes.count 0x5B + bytes.count 0x7B ≤ 127⟩
  number := id
  number_isNumeral := fun _ h => h

/-- There are no numbers in arrays in arrays. -/
lemma literals_nestedArrays (n : ℕ) : (nestedArrays n).literals = [] := by
  induction n with
  | zero => rfl
  | succ n ih => rw [nestedArrays, literals, literalsItems, literalsItems, ih]; rfl

/-- The bytes of arrays in arrays. -/
lemma utf8Bytes_nestedArrays (n : ℕ) : ∃ rest, 0x5B ∉ rest ∧ 0x7B ∉ rest ∧ rest.length = n + 4 ∧
    utf8Bytes (nestedArrays n).compact = List.replicate n 0x5B ++ rest := by
  induction n with
  | zero => exact ⟨utf8Bytes "null", by decide, by decide, by decide, rfl⟩
  | succ n ih =>
    obtain ⟨rest, hbracket, hbrace, hlength, hrest⟩ := ih
    have hopen : utf8Bytes "[" = [0x5B] := by decide
    have hclose : utf8Bytes "]" = [0x5D] := by decide
    refine ⟨rest ++ [0x5D], by simp [hbracket], by simp [hbrace], by simp [hlength], ?_⟩
    rw [nestedArrays, compact, compactItems, compactItems, String.intercalate_singleton,
      utf8Bytes_append, utf8Bytes_append, hrest, hopen, hclose, List.replicate_succ]
    simp

/-- A chunk that nests arrays in arrays. -/
def deepChunk (n : ℕ) : Envelope where
  kind := .chunk
  fields := [("data", nestedArrays n), ("type", .str "chunk")]
  kind_eq := rfl
  data_isSome := fun _ => rfl
  plain := fun _ => ⟨rfl, rfl⟩
  numeric := by
    intro literal hliteral
    simp [literals, literalsFields, literals_nestedArrays] at hliteral

/-- The nesting of such a chunk. -/
lemma depth_deepChunk (n : ℕ) : (deepChunk n).value.depth = n + 1 := by
  rw [Envelope.value, deepChunk, depth, depthFields, depthFields, depthFields, depth_nestedArrays,
    depth]
  omega

/-- The bytes of such a chunk. -/
lemma text_deepChunk (n : ℕ) : ∃ rest, 0x5B ∉ rest ∧ 0x7B ∉ rest ∧ rest.length = n + 20 ∧
    (Printed.mk (deepChunk n) false).text =
      utf8Bytes "\x7b\"data\":" ++ (List.replicate n 0x5B ++ rest) := by
  obtain ⟨rest, hbracket, hbrace, hlength, hrest⟩ := utf8Bytes_nestedArrays n
  refine ⟨rest ++ utf8Bytes ",\"type\":\"chunk\"\x7d", ?_, ?_, ?_, ?_⟩
  · rw [List.mem_append, not_or]
    exact ⟨hbracket, by decide⟩
  · rw [List.mem_append, not_or]
    exact ⟨hbrace, by decide⟩
  · have htail : (utf8Bytes ",\"type\":\"chunk\"\x7d").length = 16 := by decide
    rw [List.length_append, hlength, htail]
  · have hdata : utf8Bytes (quote "data" ++ ":") = utf8Bytes "\"data\":" := by decide
    have htype : utf8Bytes (quote "type" ++ ":" ++ compact (.str "chunk")) =
        utf8Bytes "\"type\":\"chunk\"" := by decide
    have hbefore : utf8Bytes "\x7b\"data\":" = utf8Bytes "\x7b" ++ utf8Bytes "\"data\":" := by
      decide
    have hafter : utf8Bytes ",\"type\":\"chunk\"\x7d" =
        utf8Bytes "," ++ utf8Bytes "\"type\":\"chunk\"" ++ utf8Bytes "\x7d" := by decide
    rw [Printed.text, if_neg Bool.false_ne_true, Envelope.value, deepChunk, compact, compactFields,
      compactFields, compactFields, String.intercalate_cons_cons, String.intercalate_singleton,
      utf8Bytes_append, utf8Bytes_append, utf8Bytes_append, utf8Bytes_append, htype,
      utf8Bytes_append, hdata, hrest, hbefore, hafter]
    simp only [List.append_assoc]

/-- A text with many brackets is refused behind the byte with one too many. -/
lemma count_take_brackets (n m : ℕ) {rest : List UInt8} (hbracket : 0x5B ∉ rest)
    (hbrace : 0x7B ∉ rest) :
    ((utf8Bytes "\x7b\"data\":" ++ (List.replicate n 0x5B ++ rest)).take m).count 0x5B +
      ((utf8Bytes "\x7b\"data\":" ++ (List.replicate n 0x5B ++ rest)).take m).count 0x7B =
        min m 1 + min (m - 8) n := by
  have hlength : (utf8Bytes "\x7b\"data\":").length = 8 := by decide
  have hrest : ∀ k, (rest.take k).count 0x5B = 0 ∧ (rest.take k).count 0x7B = 0 := fun k =>
    ⟨List.count_eq_zero.mpr fun h => hbracket (List.mem_of_mem_take h),
      List.count_eq_zero.mpr fun h => hbrace (List.mem_of_mem_take h)⟩
  have hfront : ((utf8Bytes "\x7b\"data\":").take m).count 0x5B = 0 ∧
      ((utf8Bytes "\x7b\"data\":").take m).count 0x7B = min m 1 := by
    cases m with
    | zero => exact ⟨rfl, rfl⟩
    | succ m =>
      obtain ⟨tail, htail, htail5B, htail7B⟩ : ∃ tail, utf8Bytes "\x7b\"data\":" = 0x7B :: tail ∧
          0x5B ∉ tail ∧ 0x7B ∉ tail := ⟨utf8Bytes "\"data\":", by decide, by decide, by decide⟩
      rw [htail, List.take_succ_cons, List.count_cons_of_ne (by decide), List.count_cons_self,
        List.count_eq_zero.mpr fun h => htail5B (List.mem_of_mem_take h),
        List.count_eq_zero.mpr fun h => htail7B (List.mem_of_mem_take h)]
      omega
  rw [List.take_append, List.take_append, List.count_append, List.count_append, List.count_append,
    List.count_append, hfront.1, hfront.2, (hrest _).1, (hrest _).2, List.take_replicate,
    List.count_replicate_self, List.count_replicate, hlength]
  simp
  omega

/-- What the reader says about a chunk that nests 128 deep. -/
lemma documented_deepChunk :
    letI : JsonReader := limitedReader
    Documented (Printed.mk (deepChunk 127) false).text (deepChunk 127).value := by
  let _ : JsonReader := limitedReader
  have hdepth : ¬ (deepChunk 127).value.depth ≤ Json.nestingLimit := by
    rw [depth_deepChunk]
    decide
  obtain ⟨rest, hbracket, hbrace, -, htext⟩ := text_deepChunk 127
  have hlength : (utf8Bytes "\x7b\"data\":").length = 8 := by decide
  refine ⟨fun h => absurd h hdepth, fun h => absurd h hdepth, fun _ => ⟨135, by decide, ?_, ?_⟩⟩
  · rw [htext, List.length_append, List.length_append, List.length_replicate, hlength]
    omega
  · intro first hfirst
    refine ⟨_, rfl, ?_⟩
    have hcount := count_take_brackets 127 first.length hbracket hbrace
    rw [← htext, ← List.prefix_iff_eq_take.mp hfirst] at hcount
    rw [decide_eq_true_iff, hcount]
    omega

/-- A chunk that nests 128 deep is not framed, though it is a short line in a single write. -/
theorem unix_output_framed_iff_deep :
    letI : JsonReader := limitedReader
    (Printed.mk (deepChunk 127) false).text.length ≤ maxLineBytes ∧
      Documented (Printed.mk (deepChunk 127) false).text (deepChunk 127).value ∧
      ¬ Framed [⟨deepChunk 127, false⟩] [printedBytes [⟨deepChunk 127, false⟩]] := by
  let _ : JsonReader := limitedReader
  have hsize : (Printed.mk (deepChunk 127) false).text.length ≤ maxLineBytes := by
    obtain ⟨rest, -, -, hlength, htext⟩ := text_deepChunk 127
    have hfront : (utf8Bytes "\x7b\"data\":").length = 8 := by decide
    rw [htext, List.length_append, List.length_append, List.length_replicate, hlength, hfront,
      maxLineBytes]
    omega
  refine ⟨hsize, documented_deepChunk, fun h => ?_⟩
  have hreadable := readable_of_framed (List.append_nil _)
    (List.forall_mem_singleton.mpr hsize) (List.forall_mem_singleton.mpr documented_deepChunk) h
    ⟨deepChunk 127, false⟩ (List.mem_singleton_self _)
  have hdepth : (deepChunk 127).value.depth ≤ Json.nestingLimit := hreadable.1
  rw [depth_deepChunk] at hdepth
  exact absurd hdepth (by decide)

end Comsat
