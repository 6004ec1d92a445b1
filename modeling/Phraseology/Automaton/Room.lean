import Phraseology.Automaton.Expr

/-! The room that automata take, and which ones take too much. -/
namespace Phraseology.Automaton

/-- Texts up to each of those that are empty. -/
def segments : List (List Nat) → List (List (List Nat))
  | [] => [[]]
  | [] :: ws => [] :: segments ws
  | w :: ws =>
    match segments ws with
    | s :: ss => (w :: s) :: ss
    | [] => [[w]]

/-- What follows the byte `b` in those texts that begin with it. -/
def behind (b : Nat) (ws : List (List Nat)) : List (List Nat) :=
  ws.filterMap fun w => match w with
    | c :: w => if c = b then some w else none
    | [] => none

/-- The room of the states at and behind a place where one of the texts is left to read; no text is
longer than the fuel. Texts before one that ends here are tried apart from those after it. -/
def branchRoom : Nat → List (List Nat) → Nat
  | 0, _ => 0
  | fuel + 1, ws =>
    let ended := if ws.head? = some [] then 1 else 0
    let ends := ended + (ws.dropWhile List.isEmpty).countP List.isEmpty
    let tried := (segments ws).filter (!·.isEmpty)
    stateRoom + alternativeRoom * (tried.length + ends) + (tried.map fun s =>
      let bytes := (s.filterMap List.head?).eraseDups
      stateRoom + (if bytes.length = 1 then 0 else transitionRoom * bytes.length)
        + (bytes.map fun b =>
            let rest := behind b s
            if rest.all List.isEmpty then 0 else branchRoom fuel rest).foldr (· + ·) 0).foldr (· + ·) 0

def literalsRoom (d : Direction) (ws : List (List Nat)) : Nat :=
  let ws := match d with
    | .forward => ws
    | .backward => ws.map List.reverse
  stateRoom + branchRoom ((ws.map List.length).foldr Nat.max 0 + 1) ws

def bytes? : Expr → Option (List Nat)
  | .literal codes => some (codes.flatMap bytesOf)
  | _ => none

/-- The room of a run of copies of a body that takes `room`. -/
def runRoom (room : Nat) : Nat := room + stateRoom + 2 * alternativeRoom

def copiesRoom (room min max : Nat) : Nat :=
  if min = 0 ∧ max = 1 then room + 2 * stateRoom + 2 * alternativeRoom
  else
    let first := if min = 0 then stateRoom else min * room
    if min = max then first
    else first + stateRoom + (max - min) * (room + stateRoom + 2 * alternativeRoom)

mutual

/-- The room of an expression. Groups are marked only where a text is read forward. -/
def room (d : Direction) : Expr → Nat
  | .empty | .assertion => stateRoom
  | .literal codes => stateRoom * (codes.flatMap bytesOf).length
  | .set rs => classRoom d rs
  | .named c => c.room d
  | .run e => runRoom (room d e)
  | .group e => match d with
    | .forward => 2 * stateRoom + room d e
    | .backward => room d e
  | .concat es => rooms d es
  | .choice es =>
    match es.mapM bytes? with
    | some ws => literalsRoom d ws
    | none => 2 * stateRoom + alternativeRoom * es.length + rooms d es
  | .repeated e min max => copiesRoom (room d e) min max

def rooms (d : Direction) : List Expr → Nat
  | [] => 0
  | e :: es => room d e + rooms d es

end

/-- An automaton takes no more room than this. -/
def roomLimit : Nat := 10 * 1024 * 1024

/-- The room of what stands before an expression: one that may begin anywhere comes after any
number of bytes. -/
def startRoom (anchored : Bool) : Nat :=
  if anchored then stateRoom
  else 3 * stateRoom + transitionRoom + 2 * alternativeRoom

/-- The room of an automaton for an expression, which is a group that ends with a match. -/
def wholeRoom (anchored : Bool) (d : Direction) (e : Expr) : Nat :=
  startRoom anchored + room d (.group e) + stateRoom

/-- A text can be read in both directions within the limit. -/
def fits (anchored : Bool) (e : Expr) : Bool :=
  wholeRoom anchored .forward e ≤ roomLimit && wholeRoom anchored .backward e ≤ roomLimit

end Phraseology.Automaton
