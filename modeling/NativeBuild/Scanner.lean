import NativeBuild.Document

namespace NativeBuild

structure Cursor where
  rest : List Char
  offset : Nat
  deriving Inhabited

abbrev Scanner := StateT Cursor Option

namespace Scanner

variable {α : Type}

def giveUp : Scanner α := fun _ => none

def peek : Scanner (Option Char) := return (← get).rest.head?

def ahead : Scanner (List Char) := return (← get).rest

def offset : Scanner Nat := return (← get).offset

def satisfy (p : Char → Bool) : Scanner Char := fun c =>
  match c.rest with
  | [] => none
  | a :: rest => if p a then some (a, ⟨rest, c.offset + a.utf8Size⟩) else none

def char (a : Char) : Scanner Unit := do let _ ← satisfy (· == a)

def token : List Char → Scanner Unit
  | [] => pure ()
  | a :: rest => do char a; token rest

def tokenIf (text : List Char) : Scanner Bool := do
  if text.isPrefixOf (← ahead) then
    token text
    return true
  else return false

def takeWhile (p : Char → Bool) : Scanner (List Char) := fun c =>
  let taken := c.rest.takeWhile p
  some (taken, ⟨c.rest.dropWhile p, c.offset + (String.ofList taken).utf8ByteSize⟩)

def takeWhile1 (p : Char → Bool) : Scanner (List Char) := do
  let first ← satisfy p
  return first :: (← takeWhile p)

def perhaps (s : Scanner α) : Scanner (Option α) := fun c =>
  match s c with
  | some (a, c') => some (some a, c')
  | none => some (none, c)

def repeatUpTo (step : Scanner (Option α)) : List Char → Scanner (List α)
  | [] => return []
  | _ :: others => do
    match ← step with
    | some a => return a :: (← repeatUpTo step others)
    | none => return []

/-- Repeats a scanner as long as it gives something. Each time but the last it has to take a
character, so there are no more times than characters. -/
def repeated (step : Scanner (Option α)) : Scanner (List α) := do
  repeatUpTo step (← ahead)

def count (p : Char → Bool) : Nat → Scanner (List Char)
  | 0 => return []
  | n + 1 => do
    let a ← satisfy p
    return a :: (← count p n)

def spanned (s : Scanner α) : Scanner (α × Span) := do
  let start ← offset
  let a ← s
  return (a, ⟨start, ← offset⟩)

end Scanner

end NativeBuild
