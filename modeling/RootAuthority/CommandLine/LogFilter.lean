import RootAuthority.Calendar.Text
import RootAuthority.Log
import RootAuthority.Text.Separated

/-!
# Which log events are printed

A filter is a list of rules between commas. A rule is a level, or the start of the name of a reporter
with a level after an equals sign, or without one for all levels. Of the rules that apply to a reporter
the one with the longest name counts, and of several of those the last. A text that cannot be read as
a filter, or none at all, lets through everything from `info` up.
-/

namespace RootAuthority.CommandLine

/-- A rule: from reporters whose name starts like this, events of at most this rank are printed. -/
structure LogRule where
  start : String
  limit : Nat
deriving DecidableEq, Repr

namespace LogRule

/-- The names of levels, the most silent first. -/
def levelNames : List String := "off" :: [Severity.error, .warn, .info, .debug, .trace].map (·.name)

/-- The same text in capital letters. -/
def upper (s : String) : String := String.ofList (s.toList.map Char.toUpper)

/-- The rank that a level lets through, given by name or number; an empty name is the level of
    errors. -/
def level? (s : String) : Option Nat :=
  if s.isEmpty then some Severity.error.rank
  else if s.toList.all Char.isDigit then s.toNat?.filter (· ≤ Severity.trace.rank)
  else levelNames.findIdx? (upper · = upper s)

/-- The name in a rule may start with this character. -/
def startsName (c : Char) : Bool := c.isAlphanum || c = '-' || c = ':' || c = '_'

/-- Reads a rule. A rule in brackets never applies here. -/
def parse? (text : List Char) : Option (List LogRule) :=
  let name := text.takeWhile (· ≠ '=')
  match text.dropWhile Char.isWhitespace with
  | [] => some [⟨String.ofList text, Severity.trace.rank⟩]
  | first :: _ =>
    if text.contains '[' then some []
    else if startsName first = false then none
    else match text.dropWhile (· ≠ '=') with
      | [] => match level? (String.ofList text) with
        | some limit => some [⟨"", limit⟩]
        | none => some [⟨String.ofList text, Severity.trace.rank⟩]
      | _ :: level => (level? (String.ofList level)).map fun limit => [⟨String.ofList name, limit⟩]

/-- The rule is about the reporter. -/
def applies (reporter : Reporter) (r : LogRule) : Bool :=
  r.start.toList.isPrefixOf reporter.name.toList

end LogRule

/-- A filter: its rules, in the order in which they are given. -/
structure LogFilter where
  rules : List LogRule
deriving DecidableEq, Repr

namespace LogFilter

/-- The filter used when there is no other. -/
def default : LogFilter := ⟨[⟨"", Severity.info.rank⟩]⟩

/-- The rule that counts for a reporter. -/
def ruleFor? (f : LogFilter) (reporter : Reporter) : Option LogRule :=
  (f.rules.filter (LogRule.applies reporter)).foldl (fun best r => match best with
    | none => some r
    | some b => if r.start.length < b.start.length then some b else some r) none

/-- **The filter that a text describes.** -/
def parse (text : Option String) : LogFilter :=
  match text.bind fun s =>
    ((Text.pieces ',' s.toList).filter (!·.isEmpty)).mapM LogRule.parse? with
  | some rules => ⟨rules.flatten⟩
  | none => default

/-- **The event is printed.** -/
def admits (f : LogFilter) (e : LogEvent) : Bool :=
  (f.ruleFor? e.reporter).any fun r => e.severity.rank ≤ r.limit

end LogFilter

/-- A text filled with spaces on the left to a width. -/
def padLeft (w : Nat) (s : String) : String :=
  String.ofList (List.replicate (w - s.length) ' ') ++ s

/-- **A line of the log.** -/
def logLine (now : Instant) (e : LogEvent) : String :=
  now.stamp ++ " " ++ padLeft 5 e.severity.name ++ " " ++ e.message ++ "\n"

end RootAuthority.CommandLine
