import Classpath.FileTree
import Classpath.Ignore.Glob
import Classpath.Text.Blank

/-!
# Ignore files

A directory can hold a file `.ignore` whose lines say which paths below it to
leave out.  A line starting with `!` keeps what it matches.  In one file the
last line that matches decides; of several files the one nearest to the path.
-/

namespace Classpath
namespace Ignore

/-- One line of an ignore file. -/
structure Rule where
  pattern : List Glob
  isKept : Bool
  onlyDirectories : Bool

/-- A pattern that may match at any depth, unless it starts there already. -/
def atAnyDepth (text : List Char) : List Char :=
  if text = "**".toList || "**/".toList.isPrefixOf text then text else "**/".toList ++ text

/-- The end of a pattern for everything inside a directory. -/
def insideEnding : List Char := "/**".toList

/-- A pattern for everything inside a directory does not match the directory. -/
def onlyInside (text : List Char) : List Char :=
  if insideEnding.isSuffixOf text then text ++ "/*".toList else text

/-- Without the slash at the end and an escape before it. -/
def dropDirectoryMark (text : List Char) : List Char :=
  let text := text.dropLast
  if text.getLast? = some '\\' then text.dropLast else text

/-- Without blanks at the end, unless the last one is escaped. -/
def trimLine (line : List Char) : List Char :=
  if "\\ ".toList.isSuffixOf line then line else Text.trimEnd line

/-- The mark in front of a pattern, if any, and the pattern: whether it keeps,
whether it is bound to the directory of the file, and its text. -/
def readMarks (line : List Char) : Bool × Bool × List Char :=
  match line with
  | '\\' :: '!' :: rest => (false, false, '!' :: rest)
  | '\\' :: '#' :: rest => (false, false, '#' :: rest)
  | '!' :: '/' :: rest => (true, true, rest)
  | '!' :: rest => (true, false, rest)
  | '/' :: rest => (false, true, rest)
  | _ => (false, false, line)

/-- The rule of a line.  Comments, blank lines and malformed patterns have none. -/
def Rule.ofLine? (line : List Char) : Option Rule :=
  if line.head? = some '#' then none
  else
    let line := trimLine line
    if line.isEmpty then none
    else
      let (isKept, isBound, text) := readMarks line
      let onlyDirectories := text.getLast? = some '/'
      let text := if onlyDirectories then dropDirectoryMark text else text
      let text := if !isBound && !text.contains '/' then atAnyDepth text else text
      (parseGlob? (onlyInside text)).map fun pattern => { pattern, isKept, onlyDirectories }

/-- The line without the carriage return at its end. -/
def dropReturn (line : List UInt8) : List UInt8 :=
  if line.getLast? = some 0x0D then line.dropLast else line

/-- The text of a line, if it is valid UTF-8. -/
def lineText? (line : List UInt8) : Option (List Char) :=
  (String.fromUTF8? (ByteArray.mk line.toArray)).map String.toList

/-- The leading lines that are text. -/
def textLines : List (List UInt8) → List (List Char)
  | [] => []
  | line :: rest =>
      match lineText? (dropReturn line) with
      | some text => text :: textLines rest
      | none => []

/-- Without the mark that a file is UTF-8. -/
def dropByteOrderMark : List (List Char) → List (List Char)
  | [] => []
  | first :: rest => first.dropWhile (· = '﻿') :: rest

/-- The rules of an ignore file.  A line that is no text ends the file. -/
def rulesOf (content : ByteArray) : List Rule :=
  let lines := Text.pieces (· == 0x0A) content.data.toList
  (dropByteOrderMark (textLines lines)).filterMap Rule.ofLine?

/-- What the rules of a file say about a path: left out, kept, or nothing. -/
def verdict? (rules : List Rule) (path : List Char) (isDirectory : Bool) : Option Bool :=
  let bytes := (String.ofList path).toUTF8.data.toList
  let applicable := rules.filter fun rule =>
    (isDirectory || !rule.onlyDirectories) && isMatch rule.pattern bytes
  applicable.getLast?.map fun rule => !rule.isKept

/-- The name of ignore files. -/
def fileName : String := ".ignore"

/-- The rules of the ignore file in a directory. -/
def rulesAt (tree : FileTree) (directory : Place) : List Rule :=
  match tree.file? (directory ++ [fileName]) with
  | some content => rulesOf content
  | none => []

/-- The path without `start` in front, if it has it. -/
def withoutStart (start path : List Char) : List Char :=
  (Text.dropStart? start path).getD path

/-- The path without one `./` in front. -/
def withoutHere (path : List Char) : List Char := withoutStart "./".toList path

/-- The path without one slash in front. -/
def withoutSlash (path : List Char) : List Char := withoutStart "/".toList path

/-- Is the path `.` in some spelling? -/
def isHere (path : List Char) : Bool :=
  match Text.pieces (· == '/') path with
  | [] => false
  | first :: rest => first = ".".toList && rest.all fun name => name.isEmpty || name = ".".toList

/-- A path as the ignore file of a directory sees it.  The path of the directory
is taken off as it is spelled, so a path that spells the directory otherwise
stays whole. -/
def seenFrom (directory path : List Char) : List Char :=
  let directory := withoutHere directory
  let path := withoutHere path
  if isHere directory || !path.contains '/' then path
  else
    match Text.dropStart? directory path with
    | some rest => withoutSlash rest
    | none => path

/-- The path of what `names` lead to from a directory. -/
def pathBelow (directory : List Char) (names : Place) : List Char :=
  if names.isEmpty then directory
  else if directory.getLast? = some '/' then directory ++ (pathText names).toList
  else directory ++ '/' :: (pathText names).toList

/-- The path of a place from the root. -/
def rootedPath (place : Place) : List Char := '/' :: (pathText place).toList

/-- A directory whose classes are listed: the path it is asked for by, and where
it is. -/
structure Listing where
  path : List Char
  place : Place

namespace Listing

/-- What an ignore file in the listed directory or below it says.  The file is in
the directory that the first `depth` names lead to. -/
def innerVerdict? (tree : FileTree) (listing : Listing) (names : Place) (isDirectory : Bool)
    (depth : Nat) : Option Bool :=
  let directory := pathBelow listing.path (names.take depth)
  let path := withoutHere (pathBelow listing.path names)
  verdict? (rulesAt tree (listing.place ++ names.take depth)) (seenFrom directory path) isDirectory

/-- The path from the root of what `names` lead to.  The path of the listed
directory is taken off as it is spelled. -/
def outerPath (listing : Listing) (names : Place) : List Char :=
  let path := withoutHere (pathBelow listing.path names)
  let rest :=
    if isHere listing.path then path
    else withoutSlash (withoutStart (withoutHere listing.path) path)
  if rest.head? = some '/' then rest
  else pathBelow (rootedPath listing.place) [String.ofList rest]

/-- What an ignore file above the listed directory says.  The file is in the
directory that is `depth` names below the root. -/
def outerVerdict? (tree : FileTree) (listing : Listing) (names : Place) (isDirectory : Bool)
    (depth : Nat) : Option Bool :=
  let above := listing.place.take depth
  verdict? (rulesAt tree above) (seenFrom (rootedPath above) (listing.outerPath names)) isDirectory

/-- Is what `names` lead to left out?  The ignore files of the directories above
it are asked, the nearest first. -/
def isIgnored (tree : FileTree) (listing : Listing) (names : Place) (isDirectory : Bool) : Bool :=
  let inner := (List.range names.length).reverse
  let outer := (List.range listing.place.length).reverse
  ((inner.findSome? (listing.innerVerdict? tree names isDirectory)) <|>
    (outer.findSome? (listing.outerVerdict? tree names isDirectory))).getD false

/-- Is the file that `names` lead to listed?  Neither it nor a directory on the
way to it may be left out. -/
def isListed (tree : FileTree) (listing : Listing) (names : Place) : Bool :=
  (List.range names.length).all fun n =>
    !listing.isIgnored tree (names.take (n + 1)) (n + 1 < names.length)

end Listing
end Ignore
end Classpath
