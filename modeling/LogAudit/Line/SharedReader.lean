import LogAudit.Line.Record

/-!
# A reader that threads share

Threads read lines by one template and share one style of timestamps to try first. A thread looks at
the shared style once for every timestamp, and only if that style fails it leaves the other one
there and reads the timestamp in that. Between these two accesses the other threads take any number
of turns. A thread that is not interrupted does what `Template.read` says.
-/

namespace LogAudit.Line

open LogAudit.Text LogAudit.Time

/-- What a template finds in a line before its timestamp is read. -/
inductive Finding where
  /-- The line gives no record. -/
  | refused (cause : LineError)
  /-- The line gives a record without a time. -/
  | timeless (captures : Captures)
  /-- The line has a timestamp. -/
  | timed (captures : Captures) (text : List Char)

namespace Template

/-- Look for the fields of a line. -/
def find (t : Template) (line : String) : Finding :=
  if line.toList.head? = some '\t' then .refused .strayContinuation
  else match t.pattern.search line.toList with
    | none => .refused .invalidFormat
    | some captures =>
      match (t.group? .time).bind captures.text? with
      | none => .timeless captures
      | some [] => .timeless captures
      | some text => .timed captures text

/-- The record of a line with a timestamp, if the timestamp denotes a time. -/
def dated (t : Template) (captures : Captures) (text : List Char) :
    Option Instant → Except LineError Record
  | some time => .ok ⟨t, captures, some time⟩
  | none => .error (.time (String.ofList text))

end Template

/-- How far a thread is with the first of its lines. -/
inductive Stage where
  /-- The line was not looked at yet. -/
  | idle
  /-- The line has a timestamp, and the shared style is to be looked at. -/
  | found (captures : Captures) (text : List Char)
  /-- The timestamp was not read in a style, and the other one is to be left to all threads. -/
  | missed (captures : Captures) (text : List Char) (style : ZoneStyle)

/-- A thread that reads lines one after the other. -/
structure ReaderThread where
  /-- The lines without an answer. -/
  lines : List String
  stage : Stage
  /-- The answers to the lines before these, in their order. -/
  answers : List (Except LineError Record)

namespace ReaderThread

/-- Answer the first line. -/
def answer (x : ReaderThread) (answer : Except LineError Record) : ReaderThread :=
  ⟨x.lines.tail, .idle, x.answers ++ [answer]⟩

/-- A turn of a thread that finds a style shared, with the style that it leaves there. -/
def step (t : Template) (x : ReaderThread) (style : ZoneStyle) : ReaderThread × ZoneStyle :=
  match x.stage with
  | .idle =>
    match x.lines with
    | [] => (x, style)
    | line :: _ =>
      match t.find line with
      | .refused cause => (x.answer (.error cause), style)
      | .timeless captures => (x.answer (.ok ⟨t, captures, none⟩), style)
      | .timed captures text => ({ x with stage := .found captures text }, style)
  | .found captures text =>
    match style.parse text with
    | some time => (x.answer (t.dated captures text (some time)), style)
    | none => ({ x with stage := .missed captures text style }, style)
  | .missed captures text tried =>
    (x.answer (t.dated captures text (tried.other.parse text)), tried.other)

end ReaderThread

/-- Threads with a template and the style that they share. -/
structure SharedReader where
  template : Template
  style : ZoneStyle
  threads : List ReaderThread

namespace SharedReader

/-- Threads with their lines, before the first turn. -/
def start (template : Template) (style : ZoneStyle) (work : List (List String)) : SharedReader :=
  ⟨template, style, work.map fun lines => ⟨lines, .idle, []⟩⟩

/-- What may happen next. -/
inductive Turn where
  /-- A thread goes on. -/
  | thread (number : Nat)
  /-- The shared style becomes this one. -/
  | becomes (style : ZoneStyle)
  deriving DecidableEq, Repr

/-- The reader after a turn. -/
def take (x : SharedReader) : Turn → SharedReader
  | .thread number =>
    match x.threads[number]? with
    | some thread =>
      let (thread, style) := thread.step x.template x.style
      { x with style, threads := x.threads.set number thread }
    | none => x
  | .becomes style => { x with style }

/-- The reader after some turns. -/
def after (x : SharedReader) (turns : List Turn) : SharedReader := turns.foldl take x

end SharedReader

end LogAudit.Line
