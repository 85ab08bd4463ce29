import PhpAudit.Text.Basic

/-!
# Log messages

A message has a **level**; a log with a threshold writes the messages whose level is at most the
threshold. A written message is a line that starts with its level. All levels write to one stream,
except that errors may be sent to a stream of their own.
-/

namespace PhpAudit

/-- **The level of a message**, the gravest first. -/
inductive Level where
  | error
  | warn
  | info
  | debug
  | trace
deriving DecidableEq, Repr, Inhabited

namespace Level

/-- The rank of a level, from one. -/
def rank : Level → Int
  | .error => 1
  | .warn => 2
  | .info => 3
  | .debug => 4
  | .trace => 5

/-- The mark at the start of a line of this level. -/
def mark : Level → Text
  | .error => "[ERROR] "
  | .warn => "[WARN] "
  | .info => "[INFO] "
  | .debug => "[DEBUG] "
  | .trace => "[TRACE] "

/-- Every level, the gravest first. -/
def all : List Level := [.error, .warn, .info, .debug, .trace]

end Level

/-- **A message**: its level and its text. -/
structure Message where
  level : Level
  text : Text
deriving DecidableEq, Repr

namespace Message

/-- The line of a message. One line break ends it; a text that ends with one gets no other. -/
def line (m : Message) : Text :=
  let body := m.level.mark ++ m.text
  if m.text.endsWith "\n" then body else body ++ "\n"

/-- The messages that a log of this threshold writes. -/
def upTo (threshold : Int) (ms : List Message) : List Message :=
  ms.filter fun m => m.level.rank ≤ threshold

end Message

/-- **A log**: its threshold, and whether errors go to a stream of their own. -/
structure Log where
  threshold : Int
  errorsApart : Bool
deriving DecidableEq, Repr

/-- What a log writes on its two streams: the common one, and that of the errors. -/
structure Written where
  main : Text
  errors : Text
deriving DecidableEq, Repr

namespace Log

/-- A line on the stream of its level, whatever the threshold. -/
def put (l : Log) (m : Message) : Written :=
  if l.errorsApart ∧ m.level = .error then ⟨"", m.line⟩ else ⟨m.line, ""⟩

/-- **Logs a message**, if its level is within the threshold. -/
def write (l : Log) (m : Message) : Written :=
  if m.level.rank ≤ l.threshold then l.put m else ⟨"", ""⟩

end Log

end PhpAudit
