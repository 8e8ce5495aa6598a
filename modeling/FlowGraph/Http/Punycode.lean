/-!
# Labels beyond ASCII

The labels of a host's name are written with ASCII characters only. `Punycode.encode` writes the
ASCII characters of a label first and then, in the order of their numbers, where each of the
others is to be inserted. The places are differences to the place before, written in digits whose
weights adapt to the differences seen so far.
-/

namespace FlowGraph.Http.Punycode

/-- A digit in base 36: letters come before figures. -/
def digit (d : Nat) : Char :=
  Char.ofNat (if d < 26 then 97 + d else 22 + d)

/-- The least digit at a place after which another digit follows. -/
def threshold (bias place : Nat) : Nat :=
  min 26 (max 1 (36 * place - bias))

/-- The digits of a number from a place on, as many as the first argument allows. -/
def digitsFrom (bias : Nat) : Nat → Nat → Nat → List Char
  | 0, _, _ => []
  | fuel + 1, place, q =>
    let t := threshold bias place
    if q < t then [digit q]
    else digit (t + (q - t) % (36 - t)) :: digitsFrom bias fuel (place + 1) ((q - t) / (36 - t))

/-- The digits of a number. Each further digit makes what is left smaller. -/
def digits (bias q : Nat) : List Char := digitsFrom bias (q + 1) 1 q

/-- Divide a difference by 35 until it is small: what is left, and how often. -/
def shrink : Nat → Nat → Nat × Nat
  | 0, delta => (delta, 0)
  | fuel + 1, delta =>
    if delta ≤ 455 then (delta, 0)
    else
      let (left, times) := shrink fuel (delta / 35)
      (left, times + 1)

/-- The bias after a difference, the first of a label or a later one, when the label has `count`
characters so far. -/
def adapt (delta count : Nat) (first : Bool) : Nat :=
  let halved := if first then delta / 700 else delta / 2
  let (left, times) := shrink delta (halved + halved / count)
  36 * times + 36 * left / (left + 38)

/-- A label while characters are inserted into it. -/
structure Insertion where
  written : List Char
  /-- The difference from the last place of an insertion to the present one. -/
  delta : Nat := 0
  bias : Nat := 72
  /-- The characters that are in the label already. -/
  count : Nat

/-- Go past a character of the label while those of number `n` are inserted. -/
def Insertion.pass (basic n : Nat) (s : Insertion) (c : Char) : Insertion :=
  if c.toNat < n then { s with delta := s.delta + 1 }
  else if c.toNat = n then
    { written := s.written ++ digits s.bias s.delta
      delta := 0
      bias := adapt s.delta (s.count + 1) (s.count = basic)
      count := s.count + 1 }
  else s

/-- Insert the characters of the numbers given, in ascending order; the first argument is the
label, the second how many of its characters are ASCII, the third the least number to come. -/
def insertAll (label : List Char) (basic : Nat) : Nat → List Nat → Insertion → Insertion
  | _, [], s => s
  | next, n :: rest, s =>
    let s := label.foldl (Insertion.pass basic n)
      { s with delta := s.delta + (n - next) * (s.count + 1) }
    insertAll label basic (n + 1) rest { s with delta := s.delta + 1 }

/-- A label in ASCII characters. -/
def encode (label : List Char) : List Char :=
  let basic := label.filter fun c => c.toNat < 128
  let others := (label.filter fun c => 128 ≤ c.toNat).map Char.toNat
  let first := if basic.isEmpty then [] else basic ++ ['-']
  (insertAll label basic.length 128 (others.mergeSort (· ≤ ·)).eraseDups
    { written := first, count := basic.length }).written

end FlowGraph.Http.Punycode
