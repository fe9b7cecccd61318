import Classpath.Event
import Classpath.Text.Alphanumeric
import Classpath.Text.Blank
import Classpath.Text.Pieces
import Classpath.Text.Quoted

/-!
# Logging

Which events are shown is decided by directives: a level, a target, or both with
an equals sign between them.  A directive applies to the parts of the program
whose name begins with its target.  It may also name a span in brackets, and in
braces there a field; then it applies only inside that span, or to events that
have the field.  The most specific directive that applies to an event decides.
-/

namespace Classpath

/-- A field named in a directive.  With a value, it asks about a span. -/
structure FieldMention where
  name : String
  hasValue : Bool
deriving DecidableEq, Repr

/-- Events are shown up to a rank.  Rank zero shows none. -/
structure LogDirective where
  target : Option String := none
  span : Option String := none
  field : Option FieldMention := none
  rank : Nat
deriving DecidableEq, Repr

/-- The directives of a run. -/
abbrev LogFilter := List LogDirective

namespace LogDirective

/-- The rank that shows everything. -/
def fullRank : Nat := 5

/-- The number a text spells in digits, after a plus sign or not. -/
def number? (text : List Char) : Option Nat :=
  let digits := if text.head? = some '+' then text.tail else text
  if digits.isEmpty || !digits.all Char.isDigit then none
  else some (digits.foldl (fun value digit => value * 10 + (digit.toNat - '0'.toNat)) 0)

/-- The rank with a name or a number. -/
def rank? (text : List Char) : Option Nat :=
  match number? text with
  | some number => if number ≤ fullRank then some number else none
  | none =>
      match String.ofList (text.map Char.toLower) with
      | "off" => some 0
      | "error" => some 1
      | "warn" => some 2
      | "info" => some 3
      | "debug" => some 4
      | "trace" => some 5
      | _ => none

/-- May a directive start with the character? -/
def isStart (c : Char) : Bool :=
  c = '-' || c = ':' || c = '_' || Text.isAlphanumeric c

/-- The rank behind an equals sign.  An empty one shows everything. -/
def levelRank? (text : List Char) : Option Nat :=
  if text.isEmpty then some fullRank else rank? text

/-- A piece of a directive.  The structure of a directive is that of its text
without the blanks around it, but the pieces are cut out of the whole text. -/
def cut (text : List Char) (start stop : Nat) : String :=
  String.ofList ((text.drop start).take (stop - start))

/-- The rank at the end of a directive, where `rest` is the structure from
`start` on. -/
def endRank? (text : List Char) (start : Nat) (rest : List Char) : Option Nat :=
  match rest with
  | [] => some fullRank
  | '=' :: _ => levelRank? (text.drop (start + 1))
  | _ => none

/-- The field that a text mentions. -/
def fieldMention? (text : String) : Option FieldMention :=
  if text = "" then none
  else some {
    name := String.ofList (text.toList.takeWhile (· != '='))
    hasValue := text.toList.contains '=' }

/-- The directive whose span starts at `start`, where `rest` is the structure from
there on. -/
def parseSpan? (text : List Char) (target : Option String) (start : Nat) (rest : List Char) :
    Option LogDirective :=
  let isBracket (c : Char) : Bool := c = ']' || c = '\x7b'
  let spanEnd := start + (rest.takeWhile (!isBracket ·)).length
  let span := cut text start spanEnd
  match rest.dropWhile (!isBracket ·) with
  | [] => none
  | ']' :: rest => do
      return { target, span := some span, rank := ← endRank? text (spanEnd + 1) rest }
  | _ :: rest =>
      let fieldEnd := spanEnd + 1 + (rest.takeWhile (· != '\x7d')).length
      match rest.dropWhile (· != '\x7d') with
      | _ :: ']' :: rest => do
          return {
            target
            span := if span = "" then none else some span
            field := ← fieldMention? (cut text (spanEnd + 1) fieldEnd)
            rank := ← endRank? text (fieldEnd + 2) rest }
      | _ => none

/-- The directive a text spells. -/
def parse? (text : List Char) : Option LogDirective :=
  let structured := Text.trim text
  let isMark (c : Char) : Bool := c = '=' || c = '['
  let targetEnd := (structured.takeWhile (!isMark ·)).length
  match structured with
  | [] => none
  | '[' :: rest => parseSpan? text none 1 rest
  | first :: _ =>
      if !isStart first then none
      else
        match structured.dropWhile (!isMark ·) with
        | [] =>
            match rank? text with
            | some rank => some { rank }
            | none => some { target := some (String.ofList text), rank := fullRank }
        | '=' :: _ => do
            return {
              target := some (cut text 0 targetEnd)
              rank := ← levelRank? (text.drop (targetEnd + 1)) }
        | _ :: rest => parseSpan? text (some (cut text 0 targetEnd)) (targetEnd + 1) rest

/-- Does the directive ask about spans?  There are none, so it shows nothing. -/
def asksAboutSpan (directive : LogDirective) : Bool :=
  directive.span.isSome || directive.field.any (·.hasValue)

/-- Does the event have a field of this name?  Its message counts as one. -/
def hasField (event : Event) (name : String) : Bool :=
  name = "message" || event.fields.any (·.1 = name)

/-- Does the directive apply to an event? -/
def appliesTo (event : Event) (directive : LogDirective) : Bool :=
  !directive.asksAboutSpan &&
    directive.target.all (Text.beginsWith · event.target) &&
    directive.field.all (hasField event ·.name)

/-- How long the target is.  No target is shorter than any. -/
def targetSize (directive : LogDirective) : Nat :=
  match directive.target with
  | none => 0
  | some target => target.utf8ByteSize + 1

/-- The name of the field, if there is one. -/
def fieldName (directive : LogDirective) : String :=
  match directive.field with
  | none => ""
  | some field => field.name

/-- Is `next` at least as specific as `best`?  A longer target is more specific,
then a field is, and then the field whose name comes later. -/
def isNoLessSpecific (best next : LogDirective) : Bool :=
  best.targetSize < next.targetSize ||
    (best.targetSize = next.targetSize &&
      ((best.field.isNone && next.field.isSome) ||
        (best.field.isNone = next.field.isNone && best.fieldName ≤ next.fieldName)))

end LogDirective

namespace LogFilter

/-- The directives a text spells, between commas.  Without any, nothing is
shown. -/
def parse? (text : String) : Option LogFilter :=
  ((Text.pieces (· == ',') text.toList).filter (!·.isEmpty)).mapM LogDirective.parse?

/-- The directives for a number of `-v` options: warnings, then also general
information, then also details. -/
def ofVerbosity (verbosity : Nat) : LogFilter :=
  [{ target := some "class_closure", rank := min (2 + verbosity) 4 }]

/-- The directives of a run.  A usable text from the environment takes the place
of the options. -/
def choose (text : Option String) (verbosity : Nat) : LogFilter :=
  (text >>= parse?).getD (ofVerbosity verbosity)

/-- Take the more specific directive, and of equal ones the later. -/
def moreSpecific (best : Option LogDirective) (next : LogDirective) : Option LogDirective :=
  match best with
  | none => some next
  | some best => if best.isNoLessSpecific next then some next else some best

/-- Is the event shown? -/
def shows (filter : LogFilter) (event : Event) : Bool :=
  match (filter.filter (LogDirective.appliesTo event)).foldl moreSpecific none with
  | some directive => event.level.rank ≤ directive.rank
  | none => false

end LogFilter

/-- A value as it is shown. -/
def EventValue.render : EventValue → String
  | text value => value
  | quoted value => Text.quoted value
  | number value => toString value

/-- An event on one line: its level, right-aligned, its message and its values. -/
def Event.render (event : Event) : String :=
  let label := event.level.label
  let fill := String.ofList (List.replicate (5 - label.length) ' ')
  let values := event.fields.map fun (name, value) => " " ++ name ++ "=" ++ value.render
  fill ++ label ++ " " ++ event.message ++ String.join values

end Classpath
