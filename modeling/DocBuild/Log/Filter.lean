import DocBuild.Log

namespace DocBuild

/-- Up to which level records are shown; none are when the limit is `off`. -/
inductive LogLimit where
  | off
  | upTo (level : LogLevel)
  deriving DecidableEq, Repr

namespace LogLimit

def rank : LogLimit → Nat
  | off => 0
  | upTo level => level.rank

/-- A limit is named by its last level, in letters of either case, or by its rank. -/
def named? (s : String) : Option LogLimit :=
  match s.toLower with
  | "off" | "0" => some off
  | "error" | "1" => some (upTo .error)
  | "warn" | "2" => some (upTo .warn)
  | "info" | "3" => some (upTo .info)
  | "debug" | "4" => some (upTo .debug)
  | "trace" | "5" => some (upTo .trace)
  | _ => none

end LogLimit

/-- A limit for the sources whose target begins with `target`. -/
structure LogRule where
  target : String
  limit : LogLimit
  deriving DecidableEq, Repr

namespace LogRule

/-- Targets begin with a letter, a digit or one of a few signs. -/
def beginsTarget (c : Char) : Bool :=
  c.isAlphanum || "-:_[".contains c || 0x80 ≤ c.toNat

/-- `target=limit`, a limit alone for every source, or a target alone for all its records. -/
def parse? (s : String) : Option LogRule :=
  let target := s.toList.takeWhile (· ≠ '=')
  if !target.head?.any beginsTarget then none
  else
    match s.toList.drop target.length with
    | [] =>
      match LogLimit.named? s with
      | some limit => some ⟨"", limit⟩
      | none => some ⟨s, .upTo .trace⟩
    | [_] => some ⟨String.ofList target, .upTo .trace⟩
    | _ :: limit => (LogLimit.named? (String.ofList limit)).map (⟨String.ofList target, ·⟩)

def covers (rule : LogRule) (source : LogSource) : Bool :=
  rule.target.toList.isPrefixOf source.target.toList

end LogRule

abbrev LogFilter := List LogRule

namespace LogFilter

/-- The rules between the commas. -/
def parse? (s : String) : Option LogFilter :=
  ((s.splitOn ",").filter (· ≠ "")).mapM LogRule.parse?

/-- The rule with the longer target; the later of two that are as long. -/
def prefer (best : Option LogRule) (rule : LogRule) : Option LogRule :=
  match best with
  | none => some rule
  | some b => if b.target.length ≤ rule.target.length then some rule else some b

/-- The rule that decides about a source. -/
def rule? (f : LogFilter) (source : LogSource) : Option LogRule :=
  (f.filter (·.covers source)).foldl prefer none

/-- Whether a record is shown. Sources without a rule are silent, but a filter without any rule lets
    errors through. -/
def allows (f : LogFilter) (r : LogRecord) : Bool :=
  if f = [] then r.level = .error
  else
    match f.rule? r.source with
    | some rule => r.level.rank ≤ rule.limit.rank
    | none => false

/-- Without a filter of the user's own, the program's records are shown up to a level that grows
    with the verbosity. -/
def ofVerbosity : Nat → LogFilter
  | 0 => [⟨"docbuild", .upTo .info⟩]
  | 1 => [⟨"docbuild", .upTo .debug⟩]
  | _ => [⟨"docbuild", .upTo .trace⟩]

end LogFilter
end DocBuild
