import PhpAudit.Text.Basic

/-!
# Hints

Some errors can be mended by whoever runs the tool. A **hint** is found from the message of an error
by what stands in it.
-/

namespace PhpAudit.Command

/-- What follows each place where a text stands in another. -/
def following (needle : List UInt8) : List UInt8 → List (List UInt8)
  | [] => if needle.isEmpty then [[]] else []
  | b :: bs =>
    (if needle.isPrefixOf (b :: bs) then [(b :: bs).drop needle.length] else []) ++
      following needle bs

/-- A text stands in another. -/
def mentions (message needle : Text) : Bool := !(following needle.bytes message.bytes).isEmpty

/-- The byte of an ASCII letter, a digit or an underscore. -/
def isWordByte (b : UInt8) : Bool :=
  let c := Char.ofNat b.toNat
  c.isAlphanum || c == '_'

/-- A path that was not found looks like a flag. -/
def mentionsFlag (message : Text) : Bool :=
  (following (Text.ofString "could not find tree files: stat -").bytes message.bytes).any fun rest =>
    rest.head?.any isWordByte

/-- **The hint for the message of an error.** -/
def hint? (message : Text) : Option Text :=
  if mentions message "could not find tree files" || mentions message "no tree file to analyze" then
    if mentionsFlag message then
      some "all command line flags should be before the paths to the tree files to analyze"
    else some "make sure the paths exist and that the file-pattern option matches the tree files"
  else if mentions message "no risks to analyze" then
    some "every risk is ignored; remove some -ignore-risk flags or ignored-risks entries"
  else if mentions message "unknown node kind" then
    some ("the syntax tree contains a construct the analysis does not handle; " ++
      "the tree may come from a newer parser")
  else none

end PhpAudit.Command
