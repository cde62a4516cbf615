import Uplink.Text.Utf8

/-!
# Scripts

The language in which commands are written: words with quotes and expansions, redirections, and
commands that are put together from others.  The source of a command or of a sum inside a word is
kept as it is written, and read when it is needed.
-/

namespace Uplink
namespace Script

/-- Values are bytes. -/
abbrev Bytes := List UInt8

/-- What stands for a parameter that has no value, or that has one. -/
inductive Otherwise where
  /-- Nothing. -/
  | nothing
  /-- Another word, if there is no value, or an empty one if that counts as none. -/
  | unset (emptyCounts : Bool)
  /-- Another word, if there is a value, but not an empty one if that counts as none. -/
  | set (emptyCounts : Bool)
  /-- The length of the value. -/
  | length
  deriving DecidableEq, Repr

/-- A part of a word.  What is not quoted is split at blanks. -/
inductive Piece where
  /-- Text as it is. -/
  | text (bytes : Bytes)
  /-- The value of a parameter. -/
  | parameter (name : String) (quoted : Bool) (otherwise : Otherwise) (other : List Piece)
  /-- The output of a command. -/
  | output (source : List Char) (quoted : Bool)
  /-- The value of a sum. -/
  | sum (parts : List Piece)

/-- A word. -/
abbrev Word := List Piece

/-- Where a redirection leads. -/
inductive Target where
  /-- A file that is read. -/
  | source (path : Word)
  /-- A file that is written, from its start or at its end. -/
  | file (path : Word) (append : Bool)
  /-- Where another descriptor leads. -/
  | same (descriptor : Nat)
  /-- Nowhere. -/
  | closed

/-- A redirection of a descriptor. -/
structure Redirect where
  /-- The descriptor. -/
  descriptor : Nat
  /-- Where it leads. -/
  target : Target

/-- A command. -/
inductive Command where
  /-- Nothing. -/
  | nothing
  /-- Values for parameters, and the words of a call. -/
  | call (assignments : List (String × Word)) (words : List Word) (redirects : List Redirect)
  /-- A command in braces, or in brackets and with parameters of its own. -/
  | group (body : Command) (own : Bool) (redirects : List Redirect)
  /-- One command after the other. -/
  | both (first second : Command)
  /-- The second command only if the first one ends with the given success. -/
  | onlyIf (success : Bool) (first second : Command)
  /-- The contrary success. -/
  | contrary (body : Command)
  /-- The output of the first command is the input of the second. -/
  | pipe (first second : Command)
  /-- A choice. -/
  | choice (condition yes no : Command)
  /-- A loop for as long as a condition ends with the given success. -/
  | loop (success : Bool) (condition body : Command)
  /-- A loop over words. -/
  | each (name : String) (words : List Word) (body : Command)
  deriving Inhabited

end Script
end Uplink
