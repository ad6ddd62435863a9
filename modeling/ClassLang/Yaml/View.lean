import ClassLang.Yaml.Fault

/-!
# Text in view

A text comes into view a chunk at a time, whenever more of it is wanted than is
in view.  What is in view then starts where that happens.  Bytes that are no
text are noticed when their chunk is wanted.  If there is nothing to notice and
no order mark in the text, it does not matter when something is wanted, and all
of the text is in view from the start.
-/

namespace ClassLang.Yaml

structure Chunks where
  /-- Whether what is in view starts with an order mark. -/
  startsWithMark : Bool
  /-- The number of characters up to the end of the view. -/
  stop : Nat
  /-- The numbers of characters up to the ends of the chunks to come. -/
  ends : List Nat
  /-- What is wrong with the bytes after the last chunk. -/
  fault : Option Fault
  deriving DecidableEq

/-- Brings the given number of characters into view where the rest of the text is
`rest`.  The end of the text counts as one more character each time that it is
wanted. -/
def Chunks.advance (chunks : Chunks) (wanted : Nat) (rest : List Char) : Except Fault Chunks :=
  let startsWithMark := rest.head? == some '\ufeff'
  match chunks.ends.dropWhile (· < wanted) with
  | stop :: ends => .ok { chunks with startsWithMark, stop, ends }
  | [] =>
    match chunks.fault with
    | some fault => .error fault
    | none =>
      .ok { chunks with startsWithMark, stop := chunks.ends.getLastD chunks.stop + 1, ends := [] }

inductive View where
  | whole
  | chunks (chunks : Chunks)
  deriving DecidableEq

namespace View

/-- The view after looking at the given number of characters. -/
def look (view : View) (wanted : Nat) (rest : List Char) : Except Fault View :=
  match view with
  | whole => .ok whole
  | chunks view =>
    if wanted ≤ view.stop then .ok (chunks view) else (view.advance wanted rest).map chunks

def startsWithMark : View → Bool
  | whole => false
  | chunks view => view.startsWithMark

end View

end ClassLang.Yaml
