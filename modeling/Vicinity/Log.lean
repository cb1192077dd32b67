/-!
Log messages and where they go.

An index records messages in a journal in the order in which they arise. A `Sink` turns each into a
line of its own, level first and then its prefix and the text. A logger without a sink drops them.
-/

namespace Vicinity.Log

inductive Level where
  | debug
  | verbose
  | notice
  | warning
deriving DecidableEq, Repr, Inhabited

namespace Level

def all : List Level := [.debug, .verbose, .notice, .warning]

def name : Level → String
  | .debug => "debug"
  | .verbose => "verbose"
  | .notice => "notice"
  | .warning => "warning"

end Level

/-- A message as an index records it. -/
structure Message where
  level : Level
  text : String
deriving DecidableEq, Repr, Inhabited

/-- Messages, the oldest first. -/
abbrev Journal := List Message

/-- A buffer of lines that share a prefix. -/
structure Sink where
  linePrefix : String := ""
  lines : List String := []
deriving DecidableEq, Repr, Inhabited

namespace Sink

/-- The line for a message. -/
def format (sink : Sink) (message : Message) : String :=
  message.level.name ++ ": " ++ sink.linePrefix ++ message.text

def log (sink : Sink) (message : Message) : Sink :=
  { sink with lines := sink.lines ++ [sink.format message] }

def clear (sink : Sink) : Sink := { sink with lines := [] }

end Sink

/-- A handle that indexes log through; without a sink, messages are lost. -/
structure Logger where
  sink? : Option Sink := none
deriving DecidableEq, Repr, Inhabited

def Logger.log (logger : Logger) (message : Message) : Logger :=
  ⟨logger.sink?.map (·.log message)⟩

end Vicinity.Log
