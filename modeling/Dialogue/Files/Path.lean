import Dialogue.Text.Split

/-!
# Paths

A path names a place in the tree of files, from the working directory or from a root.  Empty parts
and parts that are a single point are left out; two points stay, because what they mean depends on
the directories that are there.
-/

namespace Dialogue

/-- A path: the slashes that it starts with, none for a path from the working directory, and its
parts. -/
structure Path where
  root : String := ""
  parts : List String
  deriving DecidableEq, Repr

namespace Path

/-- The root that a number of slashes at the start stands for: two stand for a root of their own. -/
def rootOf : Nat → String
  | 0 => ""
  | 2 => "//"
  | _ => "/"

/-- The path that a text writes. -/
def ofText (s : String) : Path :=
  let cs := s.toList
  { root := rootOf (cs.takeWhile (· = '/')).length
    parts := ((Text.splitOn '/' cs).map String.ofList).filter fun p => p != "" && p != "." }

/-- The text of a path; the working directory is a point. -/
def text (p : Path) : String :=
  let joined := String.intercalate "/" p.parts
  if p.root.isEmpty && p.parts.isEmpty then "." else p.root ++ joined

/-- The path of something below a directory. -/
def below (p : Path) (names : List String) : Path := { p with parts := p.parts ++ names }

/-- The path of the directory that something lies in. -/
def parent (p : Path) : Path := { p with parts := p.parts.dropLast }

/-- The last part of a path. -/
def name (p : Path) : String := p.parts.getLast?.getD ""

/-- The parts with two points resolved against the part before them, and dropped at a root. -/
def flatParts (fromRoot : Bool) (parts : List String) : List String :=
  (parts.foldl
    (fun kept part =>
      match part, kept with
      | "..", [] => if fromRoot then [] else [".."]
      | "..", ".." :: _ => ".." :: kept
      | "..", _ :: above => above
      | part, kept => part :: kept)
    []).reverse

/-- The path with two points resolved by the names alone, whatever lies there. -/
def flat (p : Path) : Path := { p with parts := flatParts (!p.root.isEmpty) p.parts }

@[simp] theorem below_nil (p : Path) : p.below [] = p := by simp [below]

@[simp] theorem below_below (p : Path) (xs ys : List String) :
    (p.below xs).below ys = p.below (xs ++ ys) := by simp [below]

@[simp] theorem parent_below_singleton (p : Path) (x : String) : (p.below [x]).parent = p := by
  simp [below, parent]

end Path

end Dialogue
