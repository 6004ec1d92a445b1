import Phraseology.Automaton.Class
import Phraseology.Text.CaseFold

/-! Expressions that automata are made from, in a form in which nothing can be joined any more. -/
namespace Phraseology.Automaton

/-- What an automaton reads. An assertion reads nothing. A run has any number of copies, or at least
one, which makes no difference here. What a group reads is reported. -/
inductive Expr where
  | empty
  | literal (codes : List Nat)
  | set (ranges : List Range)
  | named (c : CharClass)
  | assertion
  | run (body : Expr)
  | group (body : Expr)
  | concat (parts : List Expr)
  | choice (alternatives : List Expr)
  | repeated (body : Expr) (min max : Nat)
  deriving Repr

namespace Expr

mutual

def same : Expr → Expr → Bool
  | .empty, .empty | .assertion, .assertion => true
  | .literal a, .literal b => a == b
  | .set a, .set b => a == b
  | .named a, .named b => a == b
  | .run a, .run b => same a b
  | .group a, .group b => same a b
  | .concat a, .concat b => sameAll a b
  | .choice a, .choice b => sameAll a b
  | .repeated a m n, .repeated b m' n' => m == m' && n == n' && same a b
  | _, _ => false

def sameAll : List Expr → List Expr → Bool
  | [], [] => true
  | a :: as, b :: bs => same a b && sameAll as bs
  | _, _ => false

end

def ofCodes (codes : List Nat) : Expr :=
  match rangesOf codes with
  | [(lo, hi)] => if lo = hi then .literal [lo] else .set [(lo, hi)]
  | rs => .set rs

def ofChar (c : Char) : Expr := ofCodes (Text.variants c)

/-- Puts a part before others. The empty one is left out, and literals are joined. -/
def cons : Expr → List Expr → List Expr
  | .empty, es => es
  | .literal a, .literal b :: es => .literal (a ++ b) :: es
  | e, es => e :: es

def parts : Expr → List Expr
  | .concat es => es
  | e => [e]

def sequence (es : List Expr) : Expr :=
  match (es.flatMap parts).foldr cons [] with
  | [] => .empty
  | [e] => e
  | es => .concat es

def repetition (e : Expr) (min max : Nat) : Expr :=
  if max = 0 then .empty else if min = 1 ∧ max = 1 then e else .repeated e min max

def alternatives : Expr → List Expr
  | .choice es => es
  | e => [e]

def code? : Expr → Option Nat
  | .literal [n] => some n
  | _ => none

def ranges? : Expr → Option (List Range)
  | .set rs => some rs
  | .named c => some c.ranges
  | _ => none

def concat? : Expr → Option (List Expr)
  | .concat es => some es
  | _ => none

/-- The ranges in order, where those that meet are one. -/
def union (rs : List Range) : List Range :=
  let insert (r : Range) (rs : List Range) : List Range :=
    rs.takeWhile (fun s => s.2 + 1 < r.1) ++
      let near := (rs.dropWhile fun s => s.2 + 1 < r.1).takeWhile fun s => s.1 ≤ r.2 + 1
      let far := (rs.dropWhile fun s => s.2 + 1 < r.1).dropWhile fun s => s.1 ≤ r.2 + 1
      near.foldl (fun t s => (Nat.min t.1 s.1, Nat.max t.2 s.2)) r :: far
  rs.foldr insert []

/-- The number of parts in which all begin alike. -/
def commonLength (first : List Expr) (others : List (List Expr)) : Nat :=
  ((List.range first.length).takeWhile fun n =>
    others.all fun es => sameAll (first.take (n + 1)) (es.take (n + 1))).length

/-- One of several expressions. What all of them begin with stands before the choice; what follows
it has fewer parts, which bounds the fuel. -/
def choose : Nat → List Expr → Expr
  | fuel, es =>
    match es.flatMap alternatives with
    | [] => .empty
    | [e] => e
    | e :: es =>
      match (e :: es).mapM code?, (e :: es).mapM ranges?, (e :: es).mapM concat? with
      | some codes, _, _ => ofCodes codes
      | _, some rs, _ => .set (union rs.flatten)
      | _, _, some (ps :: pss) =>
        match fuel, commonLength ps pss with
        | fuel + 1, n + 1 =>
          sequence (ps.take (n + 1)
            ++ [choose fuel ((ps :: pss).map fun qs => sequence (qs.drop (n + 1)))])
        | _, _ => .choice (e :: es)
      | _, _, _ => .choice (e :: es)

mutual

def size : Expr → Nat
  | .run e | .group e | .repeated e _ _ => size e + 1
  | .concat es | .choice es => sizes es + 1
  | _ => 1

def sizes : List Expr → Nat
  | [] => 0
  | e :: es => size e + sizes es

end

def alternation (es : List Expr) : Expr := choose (sizes es) es
end Expr

end Phraseology.Automaton
