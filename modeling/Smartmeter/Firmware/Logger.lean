import Mathlib.Data.List.TakeWhile

/-!
# Logging

The Rust library logs through a callback of C.  A record arrives there in
pieces; C collects them in a buffer and prints them when the record ends.  What
is printed depends on the text of a record and not on its pieces, and nothing of
one record is left to the next.
-/

namespace Smartmeter
namespace Firmware
namespace Logger

inductive CLogLevel where
  | error
  | warn
  | info
  | debug
  | trace
deriving DecidableEq, Repr

def CLogLevel.number : CLogLevel -> Nat
  | .error => 1
  | .warn => 2
  | .info => 3
  | .debug => 4
  | .trace => 5

/-!
## The sink of C
-/

/-- The macros `LOG_ERR`, `LOG_WRN`, `LOG_INF` and `LOG_DBG`. -/
inductive Severity where
  | err
  | wrn
  | inf
  | dbg
deriving DecidableEq, Repr

structure Line where
  severity : Severity
  text : List UInt8
deriving DecidableEq, Repr

/-- The bytes of a text without special characters. -/
def ascii (s : String) : List UInt8 := s.toList.map fun c => UInt8.ofNat c.toNat

def formatString (bytes : List UInt8) : List UInt8 := bytes.takeWhile (· ≠ 0)

def logLine : CLogLevel -> List UInt8 -> Line
  | .error, bytes => { severity := .err, text := formatString bytes }
  | .warn, bytes => { severity := .wrn, text := formatString bytes }
  | .info, bytes => { severity := .inf, text := formatString bytes }
  | .debug, bytes => { severity := .dbg, text := formatString bytes }
  | .trace, bytes => { severity := .dbg, text := ascii "TRACE - " ++ formatString bytes }

def truncated : Line := { severity := .wrn, text := ascii "**truncated**" }

def sizeofLogbuf : Nat := 1000

structure Sink where
  logbuf : List UInt8
  overflow : Bool
  lines : List Line
deriving DecidableEq, Repr

def SinkCallback (σ : Type) : Type := σ -> CLogLevel -> Option (List UInt8) -> σ × UInt32

def loggerSink : SinkCallback Sink := fun s level buf =>
  match buf with
  | none =>
      let line := if s.overflow then truncated else logLine level s.logbuf
      ({ logbuf := [], overflow := false, lines := s.lines ++ [line] }, 0)
  | some buf =>
      if sizeofLogbuf ≤ s.logbuf.length + buf.length then ({ s with overflow := true }, 0)
      else ({ s with logbuf := s.logbuf ++ buf }, 0)

def nopSink {σ : Type} : SinkCallback σ := fun s _ _ => (s, 0)

/-!
## The writer of Rust
-/

structure Record where
  level : CLogLevel
  target : List UInt8
  args : List (List UInt8)
deriving DecidableEq, Repr

namespace Record

def pieces (r : Record) : List (List UInt8) := r.target :: ascii ": " :: r.args

def text (r : Record) : List UInt8 := r.pieces.flatten

end Record

namespace LogWriter

variable {σ : Type}

def writeStrs (sink : SinkCallback σ) (level : CLogLevel) : σ -> List (List UInt8) -> σ
  | s, [] => s
  | s, piece :: pieces =>
      let (s, ret) := sink s level (some piece)
      if ret = 0 then writeStrs sink level s pieces else s

def finishRecord (sink : SinkCallback σ) (level : CLogLevel) (s : σ) : σ :=
  (sink s level none).1

end LogWriter

/-!
## The logger
-/

/-- The variables of the logger and of the Rust crate, and those of C. -/
structure State where
  initialized : Bool
  loggerSet : Bool
  maxLevel : Nat
  sink : Sink
  rets : List UInt32
deriving DecidableEq, Repr

namespace State

def boot : State where
  initialized := false
  loggerSet := false
  maxLevel := 0
  sink := { logbuf := [], overflow := false, lines := [] }
  rets := []

def sinkCallback (s : State) : SinkCallback Sink :=
  if s.initialized then loggerSink else nopSink

def smrInitLogger (s : State) (sink : Bool) : State × UInt32 :=
  if ¬ sink then (s, 1)
  else if s.initialized then (s, 2)
  else
    let s := { s with initialized := true }
    if s.loggerSet then (s, 3)
    else ({ s with loggerSet := true, maxLevel := CLogLevel.debug.number }, 0)

def simpleLog (s : State) (r : Record) : State :=
  if r.level.number ≤ CLogLevel.debug.number then
    let sink := LogWriter.writeStrs s.sinkCallback r.level s.sink r.pieces
    { s with sink := LogWriter.finishRecord s.sinkCallback r.level sink }
  else s

/-- The macros of the Rust crate, with the greatest level that is compiled in. -/
def log (staticMaxLevel : Nat) (s : State) (r : Record) : State :=
  if r.level.number ≤ staticMaxLevel ∧ r.level.number ≤ s.maxLevel ∧ s.loggerSet then s.simpleLog r
  else s

end State

inductive Event where
  | smrInitLogger (sink : Bool)
  | log (r : Record)
deriving DecidableEq, Repr

def State.handle (staticMaxLevel : Nat) (s : State) : Event -> State
  | .smrInitLogger sink =>
      let (s, ret) := s.smrInitLogger sink
      { s with rets := s.rets ++ [ret] }
  | .log r => s.log staticMaxLevel r

/-!
## One record
-/

def printed (level : CLogLevel) (text : List UInt8) : Line :=
  if text.length < sizeofLogbuf then logLine level text else truncated

/-- The buffer has what was written when all of it fits, and otherwise it overflows. -/
structure Sink.Holds (s : Sink) (text : List UInt8) : Prop where
  overflow : s.overflow = true <-> sizeofLogbuf ≤ text.length
  logbuf : s.overflow = false -> s.logbuf = text

namespace Sink.Holds

theorem write {s : Sink} {text : List UInt8} (h : s.Holds text) (level : CLogLevel)
    (piece : List UInt8) :
    exists s', loggerSink s level (some piece) = (s', 0) ∧ s'.lines = s.lines ∧
      s'.Holds (text ++ piece) := by
  unfold loggerSink
  dsimp only
  cases hoverflow : s.overflow with
  | true =>
      -- What still fits is added to the buffer, but it is not printed any more.
      have hlength : sizeofLogbuf ≤ (text ++ piece).length := by
        rw [List.length_append]
        exact Nat.le_add_right_of_le (h.overflow.mp hoverflow)
      split
      · exact ⟨_, rfl, rfl, ⟨fun _ => hlength, fun _ => rfl⟩, fun hfalse => by cases hfalse⟩
      · exists { s with logbuf := s.logbuf ++ piece }
        constructor
        · rw [hoverflow]
        · constructor
          · rfl
          · constructor
            · exact ⟨fun _ => hlength, fun _ => hoverflow⟩
            · intro hfalse
              rw [hoverflow] at hfalse
              cases hfalse
  | false =>
      have hlogbuf := h.logbuf hoverflow
      rw [hlogbuf, ← List.length_append]
      split <;> rename_i hlength
      · exact ⟨_, rfl, rfl, ⟨fun _ => hlength, fun _ => rfl⟩, fun hfalse => by cases hfalse⟩
      · exists { s with logbuf := text ++ piece }
        constructor
        · rw [hoverflow]
        · constructor
          · rfl
          · constructor
            · constructor
              · intro htrue
                rw [hoverflow] at htrue
                cases htrue
              · intro hle
                exact absurd hle hlength
            · intro _
              rfl

theorem writeStrs {s : Sink} {text : List UInt8} (h : s.Holds text) (level : CLogLevel)
    (pieces : List (List UInt8)) :
    (LogWriter.writeStrs loggerSink level s pieces).lines = s.lines ∧
      (LogWriter.writeStrs loggerSink level s pieces).Holds (text ++ pieces.flatten) := by
  induction pieces generalizing s text with
  | nil =>
      rw [List.flatten_nil, List.append_nil]
      exact ⟨rfl, h⟩
  | cons piece pieces ih =>
      rcases h.write level piece with ⟨s', hsink, hlines, hholds⟩
      have hrest := ih hholds
      unfold LogWriter.writeStrs
      rw [hsink, List.flatten_cons, ← List.append_assoc]
      dsimp only
      rw [if_pos rfl, hrest.1, hlines]
      exact ⟨rfl, hrest.2⟩

theorem finishRecord {s : Sink} {text : List UInt8} (h : s.Holds text) (level : CLogLevel) :
    LogWriter.finishRecord loggerSink level s =
      { logbuf := [], overflow := false, lines := s.lines ++ [printed level text] } := by
  have hline : (if s.overflow then truncated else logLine level s.logbuf) =
      printed level text := by
    unfold printed
    cases hoverflow : s.overflow with
    | true =>
        have hlength := h.overflow.mp hoverflow
        rw [if_neg (Nat.not_lt_of_le hlength)]
        rfl
    | false =>
        have hlength : text.length < sizeofLogbuf := by
          apply Nat.lt_of_not_le
          intro hle
          rw [h.overflow.mpr hle] at hoverflow
          cases hoverflow
        rw [if_pos hlength, h.logbuf hoverflow]
        rfl
  unfold LogWriter.finishRecord loggerSink
  dsimp only
  rw [hline]

end Sink.Holds

def Sink.empty (lines : List Line) : Sink := { logbuf := [], overflow := false, lines := lines }

theorem holds_empty (lines : List Line) : (Sink.empty lines).Holds [] := by
  constructor
  · constructor
    · intro hfalse
      cases hfalse
    · intro hle
      exact absurd hle (by decide)
  · intro _
    rfl

theorem record_printed (level : CLogLevel) (lines : List Line) (pieces : List (List UInt8)) :
    LogWriter.finishRecord loggerSink level
        (LogWriter.writeStrs loggerSink level (Sink.empty lines) pieces) =
      Sink.empty (lines ++ [printed level pieces.flatten]) := by
  have hwrite := (holds_empty lines).writeStrs level pieces
  rw [List.nil_append] at hwrite
  rw [hwrite.2.finishRecord level, hwrite.1]
  rfl

/-!
## All records
-/

def linesOf (staticMaxLevel : Nat) : Bool -> List Event -> List Line
  | _, [] => []
  | initialized, .smrInitLogger sink :: events =>
      linesOf staticMaxLevel (initialized || sink) events
  | false, .log _ :: events => linesOf staticMaxLevel false events
  | true, .log r :: events =>
      (if r.level.number ≤ min staticMaxLevel CLogLevel.debug.number then
        [printed r.level r.text] else []) ++ linesOf staticMaxLevel true events

/-- The results of the initialisations: the first with a sink succeeds, all others fail. -/
def retsOf : Bool -> List Event -> List UInt32
  | _, [] => []
  | initialized, .smrInitLogger sink :: events =>
      (if ¬ sink then 1 else if initialized then 2 else 0) :: retsOf (initialized || sink) events
  | initialized, .log _ :: events => retsOf initialized events

def State.at (initialized : Bool) (lines : List Line) (rets : List UInt32) : State where
  initialized := initialized
  loggerSet := initialized
  maxLevel := if initialized then CLogLevel.debug.number else 0
  sink := Sink.empty lines
  rets := rets

theorem handle_log (staticMaxLevel : Nat) (lines : List Line) (rets : List UInt32) (r : Record) :
    (State.at true lines rets).handle staticMaxLevel (.log r) =
      .at true (lines ++ if r.level.number ≤ min staticMaxLevel CLogLevel.debug.number then
        [printed r.level r.text] else []) rets := by
  have hrecord := record_printed r.level lines r.pieces
  show (State.at true lines rets).log staticMaxLevel r = _
  unfold State.log State.simpleLog
  rcases Classical.em (r.level.number ≤ min staticMaxLevel CLogLevel.debug.number) with hle | hle
  · have hstatic := Nat.le_trans hle (Nat.min_le_left _ _)
    have hdebug := Nat.le_trans hle (Nat.min_le_right _ _)
    rw [if_pos hle, if_pos ⟨hstatic, hdebug, rfl⟩, if_pos hdebug]
    exact congrArg (fun sink => { State.at true lines rets with sink := sink }) hrecord
  · have hnot : ¬ (r.level.number ≤ staticMaxLevel ∧
        r.level.number ≤ (State.at true lines rets).maxLevel ∧
          (State.at true lines rets).loggerSet) := by
      intro hall
      exact hle (Nat.le_min.mpr ⟨hall.1, hall.2.1⟩)
    rw [if_neg hle, if_neg hnot, List.append_nil]

theorem handle_init (staticMaxLevel : Nat) (initialized sink : Bool) (lines : List Line)
    (rets : List UInt32) :
    (State.at initialized lines rets).handle staticMaxLevel (.smrInitLogger sink) =
      .at (initialized || sink) lines
        (rets ++ [if ¬ sink then 1 else if initialized then 2 else 0]) := by
  cases sink <;> cases initialized <;> rfl

theorem handle_dropped (staticMaxLevel : Nat) (lines : List Line) (rets : List UInt32)
    (r : Record) : (State.at false lines rets).handle staticMaxLevel (.log r) =
      .at false lines rets := by
  apply if_neg
  intro hall
  cases hall.2.2

theorem foldl_handle (staticMaxLevel : Nat) (initialized : Bool) (lines : List Line)
    (rets : List UInt32) (events : List Event) :
    exists last, events.foldl (State.handle staticMaxLevel) (.at initialized lines rets) =
      .at last (lines ++ linesOf staticMaxLevel initialized events)
        (rets ++ retsOf initialized events) := by
  induction events generalizing initialized lines rets with
  | nil =>
      exists initialized
      unfold linesOf retsOf
      rw [List.append_nil, List.append_nil]
      rfl
  | cons event events ih =>
      rw [List.foldl_cons]
      cases event with
      | smrInitLogger sink =>
          rw [handle_init]
          rcases ih (initialized || sink) lines _ with ⟨last, hlast⟩
          exists last
          rw [hlast, List.append_assoc]
          cases initialized <;> rfl
      | log r =>
          cases initialized with
          | false =>
              rw [handle_dropped]
              exact ih false lines rets
          | true =>
              rw [handle_log]
              rcases ih true _ rets with ⟨last, hlast⟩
              exists last
              rw [hlast, List.append_assoc]
              rfl

/--
Whatever is logged and initialized in any order, exactly the records behind the
first initialisation with a sink that are not filtered out are printed, in
order, each by itself.
-/
theorem log_printed (staticMaxLevel : Nat) (events : List Event) :
    (events.foldl (State.handle staticMaxLevel) State.boot).sink =
        Sink.empty (linesOf staticMaxLevel false events) ∧
      (events.foldl (State.handle staticMaxLevel) State.boot).rets = retsOf false events := by
  rcases foldl_handle staticMaxLevel false [] [] events with ⟨last, hlast⟩
  have hboot : State.boot = .at false [] [] := rfl
  rw [hboot, hlast]
  exact ⟨rfl, rfl⟩

end Logger
end Firmware
end Smartmeter
