import QueryTree.Grammar.Reader

/-! # Reading phrases

Reading either yields a value and leaves a shorter reader, or fails and leaves the query where it
failed. A phrase takes at least one lexeme, so a chain of phrases comes to an end.

An error among the events is reported when it is reached, and what was faced before stays in place.
-/

namespace QueryTree

/-- The result of reading with fewer than `n` steps left afterwards. -/
inductive Reading (α : Type) (n : Nat) where
  | read (value : α) (reader : Reader) (shorter : reader.size < n)
  | failed (fault : ParseFault) (stand : Stand)

namespace Reading

variable {α β : Type} {m n : Nat}

def result : Reading α n → Except ParseFault α × Stand
  | read a r _ => (.ok a, r)
  | failed f s => (.error f, s)

def map (f : α → β) : Reading α n → Reading β n
  | read a r h => read (f a) r h
  | failed e s => failed e s

def relax (x : Reading α m) (h : m ≤ n) : Reading α n :=
  match x with
  | read a r h' => read a r (Nat.lt_of_lt_of_le h' h)
  | failed e s => failed e s

def loosen (x : Reading α n) : Reading α (n + 1) := x.relax (Nat.le_succ n)

def stay (a : α) (r : Reader) : Reading α (r.size + 1) := read a r (Nat.lt_succ_self _)

def bind (x : Reading α n) (f : α → (r : Reader) → r.size < n → Reading β n) : Reading β n :=
  match x with
  | read a r h => f a r h
  | failed e s => failed e s

def thenPhrase (x : Reading α n) (f : α → (r : Reader) → r.size < n → Reading β r.size) :
    Reading β n :=
  x.bind fun a r h => (f a r h).relax (Nat.le_of_lt h)

def andThen (x : Reading α n) (f : α → (r : Reader) → Reading β (r.size + 1)) : Reading β n :=
  x.bind fun a r h => (f a r).relax h

@[simp] theorem result_relax (x : Reading α m) (h : m ≤ n) : (x.relax h).result = x.result := by
  cases x <;> rfl

@[simp] theorem result_loosen (x : Reading α n) : x.loosen.result = x.result :=
  result_relax x _

end Reading

/-- Takes at least one lexeme. -/
def Phrase (α : Type) : Type := (r : Reader) → Reading α r.size

/-- What may come after a phrase: it may take no lexeme at all. -/
def Trail (α : Type) : Type := (r : Reader) → Reading α (r.size + 1)

namespace Trail

variable {α : Type}

instance : Monad Trail where
  pure a := Reading.stay a
  bind x f := fun r => (x r).andThen f

instance : MonadLift Phrase Trail where
  monadLift p := fun r => (p r).loosen

def fail (f : ParseFault) : Trail α := fun r => .failed f r

def unexpected (expected : Expectation) : Trail α := fun r => .failed (r.unexpected expected) r

def peek : Trail (Option Token) := fun r => .stay r.token? r

def finish : Trail Unit := do
  if (← peek).isSome then unexpected .endOfQuery

end Trail

namespace Reader

/-- The step over the lexeme before `ahead`. If an error comes next, `kept` says what stays. -/
def step (kept : List Event → Stand) (ahead : List Event) : Reading Unit (ahead.length + 1) :=
  match ahead with
  | [] => .read () finished (Nat.zero_lt_succ _)
  | .lexeme l :: rest => .read () (facing l rest) (Nat.lt_succ_self _)
  | .error e :: rest =>
    .failed (.lexical e) (kept (e.unread rest))

/-- Takes the current lexeme as a word. Its text is used up even if an error comes next. -/
def takeWord (current : Lexeme) (ahead : List Event) : Reading String (ahead.length + 1) :=
  (step (fun rest => facing { current with text := "" } rest) ahead).map fun _ => current.text

def acceptAs? {α : Type} (f : Token → Option α) (r : Reader) : Option (Reading α r.size) :=
  match r with
  | finished => none
  | facing l ahead =>
    (f l.token).map fun a => (step (fun rest => facing l rest) ahead).map fun _ => a

def accept? (t : Token) (r : Reader) : Option (Reading Unit r.size) :=
  r.acceptAs? fun u => if u = t then some () else none

end Reader

namespace Phrase

open Reader

variable {α β : Type}

def andThen (p : Phrase α) (f : α → Trail β) : Phrase β := fun r => (p r).andThen f

def map (f : α → β) (p : Phrase α) : Phrase β := fun r => (p r).map f

def tokenAs (f : Token → Option α) (expected : Expectation) : Phrase α := fun r =>
  (r.acceptAs? f).getD (.failed (r.unexpected expected) r)

/-- The token `t`, which is named in the error if something else is faced. -/
def expect (t : Token) : Phrase Unit := fun r =>
  (r.accept? t).getD (.failed (r.unexpected (.token t)) r)

def word (p : Token → Bool) (expected : Expectation) : Phrase String
  | finished => .failed (.ended expected) finished
  | facing l ahead =>
    if p l.token then takeWord l ahead
    else .failed (.unexpected l.text expected) (facing l ahead)

/-- One item or several with `separator` between them. The reader never gets longer than `n`. -/
def chainWithin (separator : Token) (n : Nat)
    (item : (r : Reader) → r.size ≤ n → Reading α r.size)
    (r : Reader) (h : r.size ≤ n) : Reading (List α) r.size :=
  (item r h).bind fun a r₁ h₁ =>
    match r₁.accept? separator with
    | none => .read [a] r₁ h₁
    | some taken =>
      (taken.relax (Nat.le_of_lt h₁)).thenPhrase fun _ r₂ h₂ =>
        (chainWithin separator n item r₂ (size_le_of_lt h₂ h)).map (a :: ·)
termination_by r.size

/-- A chain whose items may be given the bound that `r` sets. -/
def chainFrom (separator : Token) (r : Reader)
    (item : (r₁ : Reader) → r₁.size ≤ r.size → Reading α r₁.size) : Reading (List α) r.size :=
  chainWithin separator r.size item r (Nat.le_refl _)

def chain (separator : Token) (item : Phrase α) : Phrase (List α) := fun r =>
  chainFrom separator r fun r₁ _ => item r₁

end Phrase

namespace Trail

variable {α : Type}

def acceptAs (f : Token → Option α) : Trail (Option α) := fun r =>
  match r.acceptAs? f with
  | none => .stay none r
  | some taken => (taken.map some).loosen

def accept (t : Token) : Trail Bool := fun r =>
  match r.accept? t with
  | none => .stay false r
  | some taken => (taken.map fun _ => true).loosen

end Trail

end QueryTree
