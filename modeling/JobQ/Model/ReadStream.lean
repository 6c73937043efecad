import JobQ.Library.Text

/-!
# The output of a process

`read_stream_and_log` in `ai4s/jobq/work.py`, on all that a process writes to one of its streams up
to the end of the file. `run_cmd_and_log_outputs` runs one reader for each stream and keeps what a
reader raises among its results, so that nobody reads on. The queue is that of the log.
-/

namespace JobQ.ReadStream

structure Record where
  level : Nat
  jobId : String
  text : String
deriving DecidableEq

inductive Exc where
  | valueError
  | unicodeDecodeError
deriving DecidableEq

def newline : UInt8 := 10

/-- The limit of an `asyncio.StreamReader`, 64 KiB, not counting the newline. -/
def limit : Nat := 65536

/-- `stream.readline()`, with what it leaves in the stream. The line is empty at the end only. -/
def readline (stream : List UInt8) : Except Exc (List UInt8 × List UInt8) :=
  let line := stream.takeWhile (· ≠ newline)
  let rest := stream.dropWhile (· ≠ newline)
  if line.length > limit then .error .valueError else .ok (line ++ rest.take 1, rest.drop 1)

/-- `line.decode("utf-8")` -/
def decode (line : List UInt8) : Except Exc String :=
  match String.fromUTF8? ⟨line.toArray⟩ with
  | some text => .ok text
  | none => .error .unicodeDecodeError

def record (level : Nat) (jobId text : String) : Record :=
  ⟨level, jobId, String.ofList (Text.rstrip text.toList)⟩

theorem readline_shorter {stream line rest : List UInt8} (read : readline stream = .ok (line, rest))
    (some : line ≠ []) : rest.length < stream.length := by
  unfold readline at read
  dsimp only at read
  split at read
  · cases read
  · cases read
    have whole := congrArg List.length
      (List.takeWhile_append_dropWhile (p := (· ≠ newline)) (l := stream))
    have := List.length_pos_iff.mpr some
    simp only [List.length_append, List.length_take, List.length_drop] at whole this ⊢
    omega

def readStreamAndLog (level : Nat) (jobId : String) (stream : List UInt8) (queue : List Record) :
    Except Exc Unit × List Record :=
  match read : readline stream with
  | .error exc => (.error exc, queue)
  | .ok (line, rest) =>
    if ended : line = [] then (.ok (), queue)
    else
      have := readline_shorter read ended
      match decode line with
      | .error exc => (.error exc, queue)
      | .ok text => readStreamAndLog level jobId rest (queue ++ [record level jobId text])
termination_by stream.length

end JobQ.ReadStream
