import ImportAlias.Regex.Basic

/-!
# Matching by threads

A regular expression is compiled to a list of instructions. A thread is an address in it; all
threads read the text in step, one character at a time, in the order in which they are preferred.
No address is visited twice at one place of the text: a thread that comes to where a preferred one
has been could do nothing that the other does not do first. That also ends the loops that read
nothing.

A thread waits at a condition on the next character, even at one that holds already. When the next
character is known and makes some condition hold, all threads set out anew from where they stand.

A match may begin anywhere; the sooner it begins, the more it is preferred. When a thread has
accepted, those behind it are given up, since the match that it has found is preferred to any of
theirs, and with them the chance to begin later. What is left at the end of the text is whether the
preferred match ends there.
-/

namespace ImportAlias

namespace Regex

/-- What a thread does next. -/
inductive Instruction where
  /-- Read a character of a set and go on. -/
  | take (s : CharSet)
  /-- Go on where a condition holds. -/
  | check (l : Look)
  /-- Go on at two addresses, of which the first is preferred. -/
  | fork (first second : Nat)
  /-- Go on elsewhere. -/
  | jump (next : Nat)
  /-- A match ends here. -/
  | accept
  deriving DecidableEq, Repr

/-- Go on at two addresses, preferring the first or the second. -/
def Instruction.prefer (first : Bool) (a b : Nat) : Instruction :=
  if first then .fork a b else .fork b a

/-- The number of instructions of an expression. -/
def size : Regex → Nat
  | empty => 0
  | text t => t.length
  | set _ | look _ => 1
  | seq r s => r.size + s.size
  | alt r s => r.size + s.size + 2
  | optional _ r | many1 _ r => r.size + 1
  | many _ r => r.size + 2
  | group _ r => r.size

/-- The instructions of an expression that stand from an address on. Behind them a thread has read
what the expression reads. A repetition that may read nothing has a fork of its own behind it, so
that the first time round is told from the others. -/
def code : Regex → Nat → List Instruction
  | empty, _ => []
  | text t, _ => t.map fun c => .take (.single c)
  | set s, _ => [.take s]
  | look l, _ => [.check l]
  | seq r s, a => r.code a ++ s.code (a + r.size)
  | alt r s, a =>
    let second := a + r.size + 2
    .fork (a + 1) second :: r.code (a + 1) ++ .jump (second + s.size) :: s.code second
  | optional greedy r, a => .prefer greedy (a + 1) (a + 1 + r.size) :: r.code (a + 1)
  | many greedy r, a =>
    let behind := a + r.size + 2
    let back := if r.advances then .jump a else .prefer greedy (a + 1) behind
    .prefer greedy (a + 1) behind :: r.code (a + 1) ++ [back]
  | many1 greedy r, a => r.code a ++ [.prefer greedy a (a + r.size + 1)]
  | group _ r, a => r.code a

/-- The instructions take up as many addresses as counted. -/
theorem length_code (r : Regex) (a : Nat) : (r.code a).length = r.size := by
  induction r generalizing a with
  | empty | set _ | look _ => rfl
  | text t => simp [code, size]
  | seq r s ihr ihs => simp [code, size, ihr, ihs]
  | alt r s ihr ihs =>
    simp only [code, size, List.length_cons, List.length_append, ihr, ihs]
    omega
  | many greedy r ih => simp [code, size, ih]
  | optional greedy r ih | many1 greedy r ih => simp [code, size, ih]
  | group n r ih => simp [code, size, ih]

/-- Instructions that accept what an expression reads at some place of a text, the sooner the
better. -/
def program (r : Regex) : List Instruction :=
  (seq (many false (set (.compl .empty))) r).code 0 ++ [.accept]

/-- Where threads stand at a place of the text. -/
structure Frontier where
  /-- The addresses visited here. -/
  seen : List Nat := []
  /-- The addresses at which threads wait or have accepted, the preferred first. -/
  threads : List Nat := []
  deriving DecidableEq, Repr

namespace Frontier

/-- Follow the instructions from an address to where a character is read, with what is known to
hold. The fuel bounds the number of addresses on the way; no way visits more than the program
has. -/
def reach (p : List Instruction) (held : Look → Bool) : Nat → Nat → Frontier → Frontier
  | 0, _, f => f
  | fuel + 1, a, f =>
    if f.seen.contains a then f
    else
      let visited : Frontier := { f with seen := a :: f.seen }
      let waiting : Frontier := { visited with threads := f.threads ++ [a] }
      match p[a]? with
      | none => visited
      | some (.take _) | some .accept => waiting
      | some (.check l) => if held l then reach p held fuel (a + 1) waiting else waiting
      | some (.jump next) => reach p held fuel next visited
      | some (.fork first second) => reach p held fuel second (reach p held fuel first visited)

/-- Put a new thread at an address. -/
def add (p : List Instruction) (held : Look → Bool) (a : Nat) (f : Frontier) : Frontier :=
  reach p held (p.length + 1) a f

end Frontier

/-- Whether a thread waits for a condition that the next character makes hold. -/
def isReleased (p : List Instruction) (before after : Option Char) (a : Nat) : Bool :=
  match p[a]? with
  | some (.check l) => l.holds before after && !l.holdsBehind before
  | _ => false

/-- The threads when the next character, or that there is none, is known. -/
def release (p : List Instruction) (before after : Option Char) (threads : List Nat) : List Nat :=
  if threads.any (isReleased p before after) then
    (threads.foldl (fun f a => f.add p (Look.holds before after) a) ({} : Frontier)).threads
  else threads

/-- The threads behind a character, from those before it. -/
def read (p : List Instruction) (c : Char) : List Nat → Frontier → Frontier
  | [], f => f
  | a :: threads, f =>
    match p[a]? with
    | some .accept => f
    | some (.take s) =>
      let held := Look.holdsBehind (some c)
      read p c threads (if s.has c then f.add p held (a + 1) else f)
    | _ => read p c threads f

/-- Whether some thread has accepted when the rest of the text is read, which follows a character
or is the whole. -/
def acceptsFrom (p : List Instruction) (before : Option Char) (threads : List Nat) : Text → Bool
  | [] => (release p before none threads).any fun a => p[a]? == some .accept
  | c :: rest =>
    let released := release p before (some c) threads
    acceptsFrom p (some c) (read p c released {}).threads rest

/-- Whether the preferred match in a text ends with the text. -/
def isMatch (r : Regex) (t : Text) : Bool :=
  let p := r.program
  acceptsFrom p none (Frontier.add p (Look.holdsBehind none) 0 {}).threads t

end Regex

end ImportAlias
