import ProofFrame.Diff.Ledger
import ProofFrame.Diff.Rows

/-!
# Output sinks

The events of a diff go to a temporary file next to the target, and the finished
file is renamed over the target.  `Disk` holds the contents of the files by
path; the rename is the only step of a diff that has access to it.
-/

namespace ProofFrame.Diff

open Lib Lib.Run

inductive DiffOutput where
  | jsonLines (path : String)
  | arrowIpc (path : String)
  deriving DecidableEq, Repr

def DiffOutput.path : DiffOutput → String
  | .jsonLines path | .arrowIpc path => path

inductive EventKind where
  | added | removed | changed
  deriving DecidableEq, Repr

def EventKind.name : EventKind → String
  | .added => "added"
  | .removed => "removed"
  | .changed => "changed"

structure DiffEvent where
  kind : EventKind
  key : String
  columns : Option (List String)
  deriving DecidableEq, Repr

/-- The contents of the files of a disk, by path. -/
abbrev Disk : Type := String → Option (List UInt8)

def Disk.write (disk : Disk) (path : String) (contents : List UInt8) : Disk := fun other =>
  if other = path then some contents else disk other

/-- What has been handed to the writer of the temporary file. -/
inductive SinkWriter where
  | json (file : List UInt8)
  | arrow (rows : List (String × String × Option String))

structure AtomicSink where
  target : String
  writer : SinkWriter
  scratchCapacity : ℕ
  account : ResourceAccount

variable {ω τ : Type} [Host ω] [DiffCrates]

/-- A line of the JSON output. -/
def jsonLine (event : DiffEvent) : List UInt8 :=
  DiffCrates.jsonEvent event.kind.name event.key event.columns ++ [10]

/-- A row of the Arrow output. -/
def eventRow (event : DiffEvent) : String × String × Option String :=
  (event.kind.name, event.key, event.columns.map DiffCrates.jsonTexts)

/-- The contents of the finished temporary file. -/
def SinkWriter.contents : SinkWriter → List UInt8
  | .json file => file
  | .arrow rows => DiffCrates.ipcFile rows

omit [DiffCrates] in
/-- The writer of the output; that of an Arrow file starts with its header. -/
def SinkWriter.new (output : DiffOutput) : Run ω Fault SinkWriter :=
  match output with
  | .jsonLines _ => pure (.json [])
  | .arrowIpc _ => do
      ioOperation .writeFile
      pure (.arrow [])

/-- What writing a row to an Arrow file is estimated to take. -/
@[irreducible] def estimatedRowBytes (row : String × String × Option String) : ℕ :=
  (row.2.1.utf8ByteSize + (row.2.2.map String.utf8ByteSize).getD 0) * 4 + 4096

namespace AtomicSink

omit [DiffCrates] in
/-- `AtomicSink::new`. -/
def new (output : DiffOutput) (account : ResourceAccount) : Run ω Fault AtomicSink := do
  ioOperation .openDirectory
  ioOperation .createFile
  ioOperation .openFile
  let writer ← SinkWriter.new output
  reserve account .memory (8 * 1024 + 1024)
  pure { target := output.path, writer, scratchCapacity := 1024, account }

/-- `AtomicSink::write`.  The temporary storage is reserved by the caller. -/
def write (sink : AtomicSink) (event : DiffEvent) (reserveTemp : ℕ → Run ω Fault τ) :
    Run ω Fault (AtomicSink × τ) :=
  match sink.writer with
  | .arrow rows => do
      failIf (2 ^ 64 ≤ estimatedRowBytes (eventRow event)) (corrupt "Arrow diff event is too large")
      let temp ← reserveTemp (estimatedRowBytes (eventRow event))
      reserve sink.account .memory (estimatedRowBytes (eventRow event))
      ioOperation .writeFile
      pure ({ sink with writer := .arrow (rows ++ [eventRow event]) }, temp)
  | .json file => do
      let required := (jsonLine event).length
      failIf (2 ^ 64 ≤ required) (corrupt "Diff output record is too large")
      whenever (required > sink.scratchCapacity)
        (reserve sink.account .memory (required - sink.scratchCapacity))
      let temp ← reserveTemp required
      ioOperation .writeFile
      pure ({ sink with
        writer := .json (file ++ jsonLine event)
        scratchCapacity := max sink.scratchCapacity required }, temp)

/-- `AtomicSink::finish`: flush and sync the temporary file, then rename it over the target. -/
def finish (sink : AtomicSink) (world : ω) (disk : Disk) : Except Fault (Unit × ω) × Disk :=
  let flush : Run ω Fault Unit := do
    ioOperation .writeFile
    ioOperation .syncFile
    ioOperation .persistFile
  match flush world with
  | .error fault => (.error fault, disk)
  | .ok ((), world) => (.ok ((), world), disk.write sink.target sink.writer.contents)

end AtomicSink

/-! ## What a sink holds -/

/-- What the writer has been handed once the events are written. -/
def SinkWriter.ofEvents (output : DiffOutput) (events : List DiffEvent) : SinkWriter :=
  match output with
  | .jsonLines _ => .json (events.flatMap jsonLine)
  | .arrowIpc _ => .arrow (events.map eventRow)

/-- The sink of the output has taken the events. -/
structure AtomicSink.Holds (sink : AtomicSink) (output : DiffOutput) (events : List DiffEvent) :
    Prop where
  target_eq : sink.target = output.path
  writer_eq : sink.writer = .ofEvents output events

namespace AtomicSink

variable {output : DiffOutput} {account : ResourceAccount} {E : Fault → Prop}

theorem sat_new : Sat (new output account : Run ω Fault _) (Holds · output []) Environmental := by
  apply (sat_ioOperation (Q := fun _ => True) trivial).bind
  intro _ _
  apply (sat_ioOperation (Q := fun _ => True) trivial).bind
  intro _ _
  apply (sat_ioOperation (Q := fun _ => True) trivial).bind
  intro _ _
  apply Sat.bind (Q := (· = .ofEvents output []))
  · cases output with
    | jsonLines path => exact sat_pure rfl
    | arrowIpc path =>
        apply (sat_ioOperation (Q := fun _ => True) trivial).bind
        intro _ _
        exact sat_pure rfl
  · rintro writer rfl
    apply (sat_reserve (Q := fun _ => True) trivial).bind
    intro _ _
    exact sat_pure ⟨rfl, rfl⟩

end AtomicSink

end ProofFrame.Diff
