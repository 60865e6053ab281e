import CallChart.Trace
import CallChart.Json

/-!
# Sequence diagrams

A diagram shows calls as messages between modules. It declares the modules
that take part, in the order in which they are met, and then shows each call
as a request and a response. It is fenced, so that it can stand in a page of
text.
-/

namespace CallChart

/-- A diagram, line by line. It is kept as lines and not as a text because it is read back by lines:
the declarations and the messages are found again by their marks. -/
structure Diagram where
  lines : List String
  deriving DecidableEq, Repr

namespace Diagram

/-- What the line of a participant starts with. -/
def participantMark : String := "participant "

/-- What stands in every message. -/
def messageMark : String := "->>"

/-- The names without those that came before. `seen` are names that count as having come already. -/
def firstSeen (seen : List String) : List String → List String
  | [] => []
  | name :: names =>
    if seen.contains name then firstSeen seen names else name :: firstSeen (name :: seen) names

/-- The modules that take part: the entry module first, then callers and callees as they are met. A
module that is never called and calls nothing is not among them, except the entry module. -/
def participantsOf (trace : Trace) : List String :=
  firstSeen [] (trace.entryOwner :: trace.calls.flatMap fun c => [c.caller, c.callee])

/-- The request and the response of a call. The response goes back from the callee and repeats the
name of the function. -/
def messagesOf (call : Call) : List String :=
  [call.caller ++ messageMark ++ call.callee ++ ": " ++ call.function,
   call.callee ++ "-" ++ messageMark ++ call.caller ++ ": " ++ call.function ++ " response"]

/-- The diagram of the calls, fenced so that it can stand in a page of text. First all participants
are declared and then the calls follow, two lines for each, in the order of the trace; the last line
is empty. -/
def ofTrace (trace : Trace) : Diagram where
  lines :=
    ["```mermaid", "sequenceDiagram"]
      ++ (participantsOf trace).map (participantMark ++ ·)
      ++ trace.calls.flatMap messagesOf
      ++ ["```", ""]

def afterMark? (mark : List Char) (line : String) : Option String :=
  (mark.isPrefixOf? line.toList).map String.ofList

def holds (mark : List Char) : List Char → Bool
  | [] => mark.isEmpty
  | c :: cs => mark.isPrefixOf (c :: cs) || holds mark cs

/-- The participants that the lines declare. A line is taken for a declaration by its start alone,
so a message of a module whose name starts like one is taken too. -/
def participants (diagram : Diagram) : List String :=
  diagram.lines.filterMap (afterMark? participantMark.toList)

/-- The lines that are messages. A line is taken for one if the mark stands anywhere in it, so a
name that holds the mark makes its declaration a message. -/
def messages (diagram : Diagram) : List String :=
  diagram.lines.filter fun line => holds messageMark.toList line.toList

def text (diagram : Diagram) : String :=
  String.join (diagram.lines.map (· ++ "\n"))

end Diagram

def Call.toJson (call : Call) : Json :=
  .object [("caller", .text call.caller), ("callee", .text call.callee),
    ("function", .text call.function)]

def Trace.toJson (trace : Trace) : Json :=
  .object [("entry_module", .text trace.entryOwner),
    ("calls", .list (trace.calls.map Call.toJson))]

/-- The forms in which calls are shown. -/
inductive ChartFormat where
  | mermaid
  | json
  deriving DecidableEq, Repr

namespace ChartFormat

def name : ChartFormat → String
  | mermaid => "mermaid"
  | json => "json"

def ofName? : String → Option ChartFormat
  | "mermaid" => some mermaid
  | "json" => some json
  | _ => none

def extension : ChartFormat → String
  | mermaid => "md"
  | json => "json"

def render (format : ChartFormat) (trace : Trace) : String :=
  match format with
  | mermaid => (Diagram.ofTrace trace).text
  | json => trace.toJson.pretty ++ "\n"

end ChartFormat

end CallChart
