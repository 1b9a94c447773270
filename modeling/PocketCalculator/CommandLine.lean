import PocketCalculator.Keypad.Session

/-! # Command line: one calculation, or the history

Arguments are one line to calculate, in one piece or several, with the switch `--trace` anywhere
among them; the single argument `--history` asks for the history instead. -/

namespace PocketCalculator

/-- What a command leaves: the text it writes and, for a misuse, an exit code. -/
structure CommandOutput where
  output : String
  exitCode : Option Nat
  deriving DecidableEq

namespace CommandLine

/-- How the command is used. -/
def usage : String := "Usage: python -m rpncalc.app [--trace] 'expression' | --history"

/-- The switch that asks for the summary of the trace. -/
def traceSwitch : String := "--trace"

/-- The only argument of a command that asks for the history. -/
def historySwitch : String := "--history"

/-- Lines of output. -/
def linesText (lines : List String) : String :=
  String.join (lines.map (· ++ "\n"))

/-- The line that the arguments make up. -/
def expressionOf (args : List String) : String := " ".intercalate (args.filter (· ≠ traceSwitch))

/-- The text that a calculation writes: the summary if asked for, and the text on the display. -/
def calculationText (args : List String) (s : Session) (d : Desk) : String :=
  linesText ((if traceSwitch ∈ args then [d.trace.summary] else []) ++ [s.display.text])

/-- A line is calculated on a fresh trace. -/
def calculateLine (settings : Settings) (clock : Readings) (args : List String) (d : Desk) :
    Except Fault CommandOutput × Desk :=
  match (Session.start ⟨expressionOf args⟩).evaluate settings clock d.clearTrace with
  | ⟨.error fault, _, d⟩ => (.error fault, d)
  | ⟨.ok (), s, d⟩ => (.ok ⟨calculationText args s d, none⟩, d)

/-- The command on a desk whose journal is ready. -/
def act (settings : Settings) (clock : Readings) (args : List String) (d : Desk) :
    Except Fault CommandOutput × Desk :=
  if args = [] then (.ok ⟨linesText [usage], some 1⟩, d)
  else
    match d.openHistory (some settings.historyFile) settings.historyLimit with
    | (.error fault, d) => (.error fault, d)
    | (.ok (), d) =>
      if args = [historySwitch] then (.ok ⟨linesText d.history.lines, none⟩, d)
      else calculateLine settings clock args d

/-- The command: the level of the journal is set first. -/
def run (settings : Settings) (clock : Readings) (args : List String) (d : Desk) :
    Except Fault CommandOutput × Desk :=
  match Thresholds.ofLevel settings.logLevel with
  | .error cause => (.error (.level cause), d)
  | .ok thresholds =>
    act settings clock args { d with journal := { d.journal with thresholds := thresholds } }

end CommandLine

end PocketCalculator
