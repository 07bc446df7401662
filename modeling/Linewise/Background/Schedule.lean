import Linewise.Background.Parser

/-!
# When parsers run

Parsers run once a document has been left alone for a while. Every edit sets the clock back, so a pass
neither starts while someone is typing nor waits behind another one. Moments are milliseconds after a
fixed start.
-/

namespace Linewise

/-- A registered parser and what came of its last run. -/
structure ParserEntry where
  parser : BackgroundParser
  /-- Number of runs so far. -/
  runs : Nat
  notices : List Notice
  /-- The revision of the last document that was read to the end. -/
  parsedRevision : Option Nat

/-- The registered parsers, and when they are to run. -/
structure Schedule where
  entries : List ParserEntry
  /-- Milliseconds between the last edit and a run. -/
  delay : Nat
  /-- The moment from which on a run is due, if one is wanted. -/
  deadline : Option Nat

namespace Schedule

open Retokenizer (Reader)

/-- No parsers. -/
def ofDelay (delay : Nat) : Schedule := ⟨[], delay, none⟩

/-- Registers a parser. -/
def register (s : Schedule) (parser : BackgroundParser) : Schedule :=
  { s with entries := s.entries ++ [⟨parser, 0, [], none⟩] }

/-- Sets the clock back: a run is due once the delay is over. -/
def restart (s : Schedule) (now : Nat) : Schedule := { s with deadline := some (now + s.delay) }

/-- Gives up the run that is wanted. -/
def cancel (s : Schedule) : Schedule := { s with deadline := none }

/-- Whether a run is due. -/
def isDue (s : Schedule) (now : Nat) : Bool := s.deadline.any (· ≤ now)

/-- Runs a parser, if it can read the language. The answer has whether it was run, the entry with what
came of it, and whether the tokens of any line did not tile it. A run that fails leaves no notices. -/
def runEntry (snapshot : Snapshot) (e : ParserEntry) : Bool × ParserEntry × Bool :=
  if !e.parser.supports snapshot.languageId then (false, { e with notices := [] }, false)
  else
    let (result, malformed) := (e.parser.parse e.runs snapshot).run false
    let e := { e with runs := e.runs + 1 }
    match result with
    | .ok notices =>
      (true, { e with notices := notices, parsedRevision := some snapshot.revision }, malformed)
    | .error _ => (true, { e with notices := [] }, malformed)

/-- Runs every parser that can read the language. The answer has their number and whether the tokens of
any line did not tile it. -/
def runAll (s : Schedule) (snapshot : Snapshot) : Nat × Schedule × Bool :=
  let ran := s.entries.map (runEntry snapshot)
  ((ran.filter (·.1)).length, { s with entries := ran.map (·.2.1) }, ran.any (·.2.2))

/-- Runs the parsers if that is due. -/
def poll (s : Schedule) (now : Nat) (snapshot : Snapshot) : Nat × Schedule × Bool :=
  if s.isDue now then s.cancel.runAll snapshot else (0, s, false)

/-- The entry of the first parser of a name. -/
def entry? (s : Schedule) (name : String) : Option ParserEntry :=
  s.entries.find? fun e => e.parser.name == name

/-- The notices of a parser. -/
def notices? (s : Schedule) (name : String) : Option (List Notice) := (s.entry? name).map (·.notices)

/-- The revision of the last document that a parser has read to the end. -/
def parsedRevision? (s : Schedule) (name : String) : Option Nat :=
  (s.entry? name).bind (·.parsedRevision)

/-- All notices, each with the name of its parser. -/
def allNotices (s : Schedule) : List (String × Notice) :=
  s.entries.flatMap fun e => e.notices.map fun n => (e.parser.name, n)

end Schedule

end Linewise
