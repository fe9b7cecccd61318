import Classpath.Text.Pieces

/-!
# Glob patterns

Patterns for paths, matched byte by byte.  `*` and `?` stay within one name of
the path, `**` as a whole name stands for any number of names, `[...]` for one
byte of a set, and `{a,b}` for one of several patterns.
-/

namespace Classpath
namespace Ignore

/-- One element of a pattern. -/
inductive Glob
  | byte (value : UInt8)
  | anyByte
  | anyBytes
  /-- Any number of names at the start of a path. -/
  | leadingNames
  /-- A slash and everything after it. -/
  | trailingNames
  /-- A slash, any number of names, and the slash after them. -/
  | innerNames
  | oneOf (isNegated : Bool) (ranges : List (UInt8 × UInt8))
  /-- One of several patterns.  Without any it stands for nothing at all. -/
  | alternatives (branches : List (List Glob))

/-- Does the element stand for nothing at all? -/
def Glob.isVoid : Glob → Bool
  | alternatives [] => true
  | _ => false

/-- The byte between the names of a path. -/
def slash : UInt8 := 0x2F

def isSlash (byte : UInt8) : Bool := byte == slash

/-- Which positions of a text have been reached: one mark in front of each byte
and one at the end. -/
abbrev Marks := List Bool

namespace Marks

/-- Only the start of the text is reached. -/
def atStart (bytes : List UInt8) : Marks := true :: bytes.map fun _ => false

/-- Is the end of the text reached? -/
def atEnd (marks : Marks) : Bool := marks.getLastD false

/-- What either of two reaches. -/
def or (marks others : Marks) : Marks := List.zipWith (· || ·) marks others

/-- Go over one byte that is accepted. -/
def step (accepts : UInt8 → Bool) (bytes : List UInt8) (marks : Marks) : Marks :=
  false :: List.zipWith (fun mark byte => mark && accepts byte) marks bytes

/-- Go over any number of accepted bytes.  `carried` tells whether the position is
reached from the byte in front of it. -/
def spread (accepts : UInt8 → Bool) (carried : Bool) : List UInt8 → Marks → Marks
  | byte :: bytes, mark :: marks =>
      let reached := mark || carried
      reached :: spread accepts (reached && accepts byte) bytes marks
  | [], mark :: _ => [mark || carried]
  | _, [] => []

/-- Go over any bytes up to and with a slash. -/
def pastSlash (bytes : List UInt8) (marks : Marks) : Marks :=
  step isSlash bytes (spread (fun _ => true) false bytes marks)

end Marks

mutual

/-- The positions that an element leads to. -/
def Glob.reach (bytes : List UInt8) (marks : Marks) : Glob → Marks
  | .byte value => marks.step (· == value) bytes
  | .anyByte => marks.step (!isSlash ·) bytes
  | .anyBytes => marks.spread (!isSlash ·) false bytes
  | .leadingNames => marks.or (marks.pastSlash bytes)
  | .trailingNames => Marks.spread (fun _ => true) false bytes (marks.step isSlash bytes)
  | .innerNames =>
      let inside := marks.step isSlash bytes
      inside.or (inside.pastSlash bytes)
  | .oneOf isNegated ranges =>
      marks.step
        (fun byte => (ranges.any fun (low, high) => low ≤ byte && byte ≤ high) != isNegated) bytes
  | .alternatives branches => if branches.isEmpty then marks else reachSome bytes marks branches

/-- The positions that elements lead to, one after another. -/
def reachAll (bytes : List UInt8) (marks : Marks) : List Glob → Marks
  | [] => marks
  | glob :: globs => reachAll bytes (glob.reach bytes marks) globs

/-- The positions that one of several patterns leads to. -/
def reachSome (bytes : List UInt8) (marks : Marks) : List (List Glob) → Marks
  | [] => marks.map fun _ => false
  | branch :: branches => (reachAll bytes marks branch).or (reachSome bytes marks branches)

end

/-- Does a pattern match all the bytes?  A pattern of nothing but `**` matches
everything. -/
def isMatch (pattern : List Glob) (bytes : List UInt8) : Bool :=
  match pattern with
  | [.leadingNames] => true
  | _ => (reachAll bytes (Marks.atStart bytes) pattern).atEnd

/-- The bytes of a character in UTF-8. -/
def charBytes (c : Char) : List UInt8 := (String.singleton c).toUTF8.data.toList

/-- The ranges of bytes of a range of characters.  Only single bytes make a true
range; of longer characters the bytes are listed. -/
def byteRanges (low high : Char) : List (UInt8 × UInt8) :=
  if low = high then (charBytes low).map fun b => (b, b)
  else
    let lows := charBytes low
    let highs := charBytes high
    (lows.dropLast.map fun b => (b, b)) ++ (lows.getLastD 0, highs.headD 0) ::
      (highs.drop 1).map fun b => (b, b)

/-- What follows an opening bracket. -/
inductive ClassText
  /-- There is no closing bracket. -/
  | unclosed
  /-- A range runs backwards. -/
  | invalid
  | closed (ranges : List (Char × Char)) (rest : List Char)

/-- Read the set after an opening bracket.  A closing bracket or a dash that comes
first stands for itself, and so does a dash that comes last. -/
def readClass (isFirst isRange : Bool) (ranges : List (Char × Char)) : List Char → ClassText
  | [] => .unclosed
  | ']' :: rest =>
      if isFirst then readClass false false ((']', ']') :: ranges) rest
      else .closed (if isRange then ('-', '-') :: ranges else ranges) rest
  | c :: rest =>
      if c = '-' && isFirst then readClass false false (('-', '-') :: ranges) rest
      else if c = '-' && !isRange then readClass false true ranges rest
      else
        match isRange, ranges with
        | true, (low, _) :: others =>
            if c < low then .invalid else readClass false false ((low, c) :: others) rest
        | _, _ => readClass false false ((c, c) :: ranges) rest

/-- A pattern under construction: the finished branches of the innermost braces
and the branch being read, latest first. -/
structure Branches where
  finished : List (List Glob) := []
  current : List Glob := []

/-- The patterns being read, innermost first.  Outside of braces there is one. -/
abbrev GlobStack := Branches × List Branches

namespace GlobStack

def push (glob : Glob) : GlobStack → GlobStack
  | (top, outer) => ({ top with current := glob :: top.current }, outer)

def pushChar (c : Char) (stack : GlobStack) : GlobStack :=
  (charBytes c).foldl (fun stack b => stack.push (.byte b)) stack

/-- Replace the latest element. -/
def replace (f : Glob → Glob) : GlobStack → GlobStack
  | (top, outer) =>
      match top.current with
      | glob :: before => ({ top with current := f glob :: before }, outer)
      | [] => (top, outer)

def isNested (stack : GlobStack) : Bool := !stack.2.isEmpty

def isEmpty (stack : GlobStack) : Bool := stack.1.current.isEmpty

/-- Does a new name start after the character `last`?  In braces one also starts
after a comma or an opening brace, escaped or not. -/
def startsName (stack : GlobStack) (last : Option Char) : Bool :=
  last = some '/' || (stack.isNested && (last = some ',' || last = some '\x7b'))

/-- Start the next branch. -/
def nextBranch : GlobStack → GlobStack
  | (top, outer) => (⟨top.current.reverse :: top.finished, []⟩, outer)

def openBraces : GlobStack → GlobStack
  | (top, outer) => ({}, top :: outer)

/-- Finish the innermost braces.  Branches that stand for nothing at all do not
count. -/
def closeBraces? : GlobStack → Option GlobStack
  | (_, []) => none
  | (top, next :: outer) =>
      let branches := (top.current.reverse :: top.finished).reverse
      let counted := branches.filter (!·.all Glob.isVoid)
      some ({ next with current := .alternatives counted :: next.current }, outer)

end GlobStack

/-- The element for `**` as a whole name, in place of what stands before it. -/
def manyNames (isLast : Bool) : Glob → Glob
  | .leadingNames => .leadingNames
  | .trailingNames => .trailingNames
  | _ => if isLast then .trailingNames else .innerNames

/-- Read a pattern.  `last` is the character before.  Every step takes at least
one character, so as much fuel as there are characters is enough. -/
def readGlobs (stack : GlobStack) (last : Option Char) : (fuel : Nat) → List Char →
    Option (List Glob)
  | _, [] => if stack.isNested then none else some stack.1.current.reverse
  | 0, _ :: _ => none
  | fuel + 1, c :: rest =>
      match c with
      | '?' => readGlobs (stack.push .anyByte) (some c) fuel rest
      | '*' =>
          match rest with
          | '*' :: rest =>
              let twice := (stack.push .anyBytes).push .anyBytes
              if stack.isEmpty then
                match rest with
                | [] => readGlobs (stack.push .leadingNames) (some c) fuel rest
                | '/' :: rest => readGlobs (stack.push .leadingNames) (some '/') fuel rest
                | _ => readGlobs twice (some c) fuel rest
              else if stack.startsName last then
                match rest with
                | [] => readGlobs (stack.replace (manyNames true)) (some c) fuel rest
                | '/' :: rest => readGlobs (stack.replace (manyNames false)) (some '/') fuel rest
                | next :: _ =>
                    if (next = ',' || next = '}') && stack.isNested then
                      readGlobs (stack.replace (manyNames true)) (some c) fuel rest
                    else
                      readGlobs twice (some c) fuel rest
              else
                readGlobs twice (some c) fuel rest
          | _ => readGlobs (stack.push .anyBytes) (some c) fuel rest
      | '[' =>
          let (isNegated, set) :=
            match rest with
            | '!' :: set => (true, set)
            | '^' :: set => (true, set)
            | set => (false, set)
          match readClass true false [] set with
          | .unclosed => readGlobs (stack.pushChar '[') (some c) fuel rest
          | .invalid => none
          | .closed ranges rest =>
              let bytes := ranges.flatMap fun (low, high) => byteRanges low high
              readGlobs (stack.push (.oneOf isNegated bytes)) (some ']') fuel rest
      | '{' => readGlobs stack.openBraces (some c) fuel rest
      | '}' =>
          match stack.closeBraces? with
          | some stack => readGlobs stack (some c) fuel rest
          | none => none
      | ',' =>
          if stack.isNested then readGlobs stack.nextBranch (some c) fuel rest
          else readGlobs (stack.pushChar c) (some c) fuel rest
      | '\\' =>
          match rest with
          | [] => none
          | escaped :: rest => readGlobs (stack.pushChar escaped) (some escaped) fuel rest
      | _ => readGlobs (stack.pushChar c) (some c) fuel rest

/-- The pattern a text spells, if it is well formed. -/
def parseGlob? (text : List Char) : Option (List Glob) :=
  readGlobs ({}, []) none text.length text

end Ignore
end Classpath
