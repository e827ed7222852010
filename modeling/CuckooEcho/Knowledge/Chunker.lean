import CuckooEcho.Lib.Text

namespace CuckooEcho.Knowledge
open Lib

/-! ## Splitting a document into chunks -/

structure ChunkOptions where
  chunkSize : Nat := 512
  chunkOverlap : Nat := 64
  deriving DecidableEq, Repr

def separators : List Text :=
  ["\n\n", "\n", "。", "！", "？", ".", "!", "?", " ", ""].map String.toList

section
variable (o : ChunkOptions)

/-- The `while` loop of `_fixed_size_split`; `none` if it has not ended after that many rounds. -/
def windows (text : Text) : (rounds : Nat) → (start : Int) → Option (List Text)
  | 0, _ => none
  | rounds + 1, start =>
      if start < text.length then
        let stop := start + o.chunkSize
        let window := text.slice start stop
        let start := stop - o.chunkOverlap
        if text.length ≤ start then some [window]
        else (windows text rounds start).map (window :: ·)
      else some []

/-- `none` if the loop does not end: one that does moves on in every round. -/
def fixedSizeSplit (text : Text) : Option (List Text) :=
  (windows o text (text.length + 1) 0).map fun chunks => chunks.filter (Text.strip · ≠ [])

def mergeParts (recurse : Text → Option (List Text)) (sep : Text) (chunks : List Text) (current : Text) :
    List Text → Option (List Text)
  | [] => some (if current ≠ [] then chunks ++ [current] else chunks)
  | part :: parts =>
      let candidate := if current ≠ [] then current ++ sep ++ part else part
      if candidate.length ≤ o.chunkSize then mergeParts recurse sep chunks candidate parts
      else
        let chunks := if current ≠ [] then chunks ++ [current] else chunks
        if part.length > o.chunkSize then
          -- `current` is kept, although it has been emitted
          (recurse part).bind fun more => mergeParts recurse sep (chunks ++ more) current parts
        else mergeParts recurse sep chunks part parts

def recursiveSplit : (seps : List Text) → Text → Option (List Text)
  | [], text =>
      if text.length ≤ o.chunkSize then some (if text.strip ≠ [] then [text] else [])
      else fixedSizeSplit o text
  | sep :: seps, text =>
      if text.length ≤ o.chunkSize then some (if text.strip ≠ [] then [text] else [])
      else if sep = [] then fixedSizeSplit o text
      else if sep <:+: text then mergeParts o (recursiveSplit seps) sep [] [] (Text.split sep text)
      -- a separator that does not occur is skipped
      else recursiveSplit seps text

def splitText (text : Text) : Option (List Text) :=
  if text = [] ∨ text.strip = [] then some []
  else (recursiveSplit o separators text.strip).map fun chunks =>
    let chunks := if chunks = [] then [text.strip.take o.chunkSize] else chunks
    let chunks := (chunks.filter (Text.strip · ≠ [])).map Text.strip
    if chunks ≠ [] then chunks else [text.strip.take o.chunkSize]

end

/-- The characters of a document that are neither white space nor part of a separator. -/
def isContent (c : Char) : Bool := !Pattern.isSpace c && separators.all (c ∉ ·)

def content (text : Text) : Text := text.filter isContent

end CuckooEcho.Knowledge
