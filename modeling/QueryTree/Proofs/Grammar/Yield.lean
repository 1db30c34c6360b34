import QueryTree.Grammar.Reading

/-! # What readings yield

A reading yields a value and a reader, or nothing. The statements below say of every way to build
readings what it yields. A lexeme counts as taken only if no error comes after it, so a reader that
was reached is the list of the events that were ahead.
-/

namespace QueryTree

namespace Reader

def events : Reader → List Event
  | finished => []
  | facing l ahead => .lexeme l :: ahead

def ofLexemes : List Lexeme → Reader
  | [] => finished
  | l :: ls => facing l (ls.map .lexeme)

@[simp] theorem events_facing (l : Lexeme) (ahead : List Event) :
    (facing l ahead).events = .lexeme l :: ahead := rfl

@[simp] theorem events_ofLexemes (ls : List Lexeme) : (ofLexemes ls).events = ls.map .lexeme := by
  cases ls <;> rfl

@[simp] theorem ofLexemes_nil : ofLexemes [] = finished := rfl

@[simp] theorem ofLexemes_cons (l : Lexeme) (ls : List Lexeme) :
    ofLexemes (l :: ls) = facing l (ls.map .lexeme) := rfl

@[simp] theorem token?_facing (l : Lexeme) (ahead : List Event) :
    (facing l ahead).token? = some l.token := rfl

@[simp] theorem token?_ofLexemes (ls : List Lexeme) :
    (ofLexemes ls).token? = ls.head?.map Lexeme.token := by
  cases ls <;> rfl

theorem token?_ofLexemes_eq_some_iff {t : Token} {ls : List Lexeme} :
    (ofLexemes ls).token? = some t ↔ ∃ text rest, ls = ⟨t, text⟩ :: rest := by
  rcases ls with - | ⟨⟨u, text⟩, rest⟩
  · simp [token?]
  · simp [eq_comm]

theorem ofLexemes_injective : Function.Injective ofLexemes := by
  intro ls ls' h
  have same := congrArg Reader.events h
  simp only [events_ofLexemes] at same
  exact (List.map_inj_right fun _ _ => Event.lexeme.inj).mp same

theorem events_eq_nil_iff {r : Reader} : r.events = [] ↔ r = finished := by
  cases r <;> simp [events]

theorem events_eq_cons_iff {r : Reader} {e : Event} {es : List Event} :
    r.events = e :: es ↔ ∃ l, e = .lexeme l ∧ r = facing l es := by
  cases r with
  | finished => simp [events]
  | facing l ahead =>
    simp only [events_facing, List.cons.injEq, facing.injEq]
    grind

theorem size_facing_events (l : Lexeme) (r : Reader) :
    (facing l r.events).size = r.size + 1 := by
  cases r <;> rfl

end Reader

namespace Reading

open Reader

variable {α β : Type} {m n : Nat} {a : α} {b : β} {r r' : Reader} {x : Reading α n}

/-- The reading ends well with the value `a` and leaves the reader `r`. -/
def Yields (x : Reading α n) (a : α) (r : Reader) : Prop := x.result = (.ok a, .reader r)

theorem Yields.size_lt (h : x.Yields a r) : r.size < n := by
  cases x with
  | read b r₁ shorter => cases h; exact shorter
  | failed e r₁ => cases h

theorem Yields.size_lt_of_facing {l : Lexeme} (h : x.Yields a (facing l r.events)) :
    r.size < n := by
  have := h.size_lt
  rw [size_facing_events] at this
  omega

theorem exists_yields_of_result (h : x.result.1 = .ok a) : ∃ r, x.Yields a r := by
  cases x with
  | read b r₁ shorter =>
    cases h
    exact ⟨r₁, rfl⟩
  | failed => cases h

theorem Yields.unique {a' : α} (h : x.Yields a r) (h' : x.Yields a' r') : a = a' ∧ r = r' := by
  have same := h.symm.trans h'
  simpa using same

@[simp] theorem yields_read {a' : α} {h : r'.size < n} :
    (read a' r' h).Yields a r ↔ a' = a ∧ r' = r := by
  simp [Yields, result]

@[simp] theorem yields_failed {f : ParseFault} {s : Stand} :
    (failed f s : Reading α n).Yields a r ↔ False := by
  simp [Yields, result]

@[simp] theorem yields_stay {a' : α} : (stay a' r').Yields a r ↔ a' = a ∧ r' = r :=
  yields_read

@[simp] theorem yields_map {f : α → β} : (x.map f).Yields b r ↔ ∃ a, x.Yields a r ∧ f a = b := by
  cases x with
  | read a' r' h =>
    simp only [map, yields_read]
    constructor
    · rintro ⟨rfl, rfl⟩
      exact ⟨a', ⟨rfl, rfl⟩, rfl⟩
    · rintro ⟨a, ⟨rfl, rfl⟩, rfl⟩
      exact ⟨rfl, rfl⟩
  | failed e r' => simp [map]

@[simp] theorem yields_relax {h : n ≤ m} : (x.relax h).Yields a r ↔ x.Yields a r := by
  simp [Yields]

@[simp] theorem yields_loosen : x.loosen.Yields a r ↔ x.Yields a r := by
  simp [Yields]

theorem yields_bind {f : α → (r : Reader) → r.size < n → Reading β n} :
    (x.bind f).Yields b r ↔ ∃ a r₁, ∃ h : x.Yields a r₁, (f a r₁ h.size_lt).Yields b r := by
  cases x with
  | read a' r₁ h =>
    constructor
    · exact fun hb => ⟨a', r₁, rfl, hb⟩
    · rintro ⟨a, r₂, ha, hb⟩
      cases ha
      exact hb
  | failed e r₁ => simp [bind]

theorem yields_thenPhrase {f : α → (r : Reader) → r.size < n → Reading β r.size} :
    (x.thenPhrase f).Yields b r ↔
      ∃ a r₁, ∃ h : x.Yields a r₁, (f a r₁ h.size_lt).Yields b r := by
  simp [thenPhrase, yields_bind]

theorem yields_andThen {f : α → (r : Reader) → Reading β (r.size + 1)} :
    (x.andThen f).Yields b r ↔ ∃ a r₁, x.Yields a r₁ ∧ (f a r₁).Yields b r := by
  simp [andThen, yields_bind]

end Reading

namespace Reader

open Reading

variable {α : Type} {a : α} {r r' : Reader} {t : Token}

theorem yields_step {kept : List Event → Stand} {ahead : List Event} {u : Unit} :
    (step kept ahead).Yields u r' ↔ ahead = r'.events := by
  cases ahead with
  | nil => cases r' <;> simp [step, events, Yields, result]
  | cons e rest => cases e <;> cases r' <;> simp [step, events, Yields, result]

theorem yields_takeWord {l : Lexeme} {ahead : List Event} {w : String} :
    (takeWord l ahead).Yields w r' ↔ l.text = w ∧ ahead = r'.events := by
  simp [takeWord, yields_step, and_comm]

theorem yields_map_step {f : Token → Option α} {l : Lexeme} {b : α} {ahead : List Event}
    {kept : List Event → Stand} (hb : f l.token = some b) :
    ((step kept ahead).map fun _ => b).Yields a r' ↔
      ∃ l', f l'.token = some a ∧ facing l ahead = facing l' r'.events := by
  refine yields_map.trans ?_
  simp only [yields_step]
  grind

theorem acceptAs?_eq_none_iff {f : Token → Option α} :
    r.acceptAs? f = none ↔ r.token?.bind f = none := by
  cases r <;> simp [acceptAs?, token?]

theorem yields_of_acceptAs? {f : Token → Option α} {taken : Reading α r.size}
    (h : r.acceptAs? f = some taken) :
    taken.Yields a r' ↔ ∃ l, f l.token = some a ∧ r = facing l r'.events := by
  cases r with
  | finished => cases h
  | facing l ahead =>
    obtain ⟨b, hb, rfl⟩ := Option.map_eq_some_iff.mp h
    exact yields_map_step hb

theorem accept?_eq_none_iff : r.accept? t = none ↔ r.token? ≠ some t := by
  cases r <;> simp [accept?, acceptAs?, token?]

theorem exists_facing_iff {u : Unit} {ahead : List Event} :
    (∃ l, (if l.token = t then some () else none) = some u ∧ r = facing l ahead) ↔
      ∃ text, r = facing ⟨t, text⟩ ahead := by
  constructor
  · rintro ⟨⟨t', text⟩, ht, rfl⟩
    obtain rfl : t' = t := by simpa using ht
    exact ⟨text, rfl⟩
  · rintro ⟨text, rfl⟩
    exact ⟨⟨t, text⟩, by simp, rfl⟩

theorem yields_of_accept? {taken : Reading Unit r.size} {u : Unit} (h : r.accept? t = some taken) :
    taken.Yields u r' ↔ ∃ text, r = facing ⟨t, text⟩ r'.events :=
  (yields_of_acceptAs? h).trans exists_facing_iff

theorem accept?_facing_ne_none {text : String} {ahead : List Event} :
    (facing ⟨t, text⟩ ahead).accept? t ≠ none := by
  simp [accept?, acceptAs?]

end Reader

namespace Phrase

open Reader Reading

variable {α β : Type} {a : α} {b : β} {r r' : Reader} {p : Phrase α}

theorem yields_andThen {f : α → Trail β} :
    (p.andThen f r).Yields b r' ↔ ∃ a r₁, (p r).Yields a r₁ ∧ (f a r₁).Yields b r' :=
  Reading.yields_andThen

theorem yields_tokenAs {f : Token → Option α} {e : Expectation} :
    (tokenAs f e r).Yields a r' ↔ ∃ l, f l.token = some a ∧ r = facing l r'.events := by
  unfold tokenAs
  cases h : r.acceptAs? f with
  | some taken => exact yields_of_acceptAs? h
  | none =>
    simp only [Option.getD_none, yields_failed, false_iff]
    rintro ⟨l, hl, rfl⟩
    simp [acceptAs?, hl] at h

theorem expect_eq_tokenAs (t : Token) :
    expect t = tokenAs (fun u => if u = t then some () else none) (.token t) := rfl

theorem yields_expect {t : Token} {u : Unit} :
    (expect t r).Yields u r' ↔ ∃ text, r = facing ⟨t, text⟩ r'.events := by
  rw [expect_eq_tokenAs, yields_tokenAs, exists_facing_iff]

theorem yields_word {q : Token → Bool} {e : Expectation} {w : String} :
    (word q e r).Yields w r' ↔ ∃ t, q t ∧ r = facing ⟨t, w⟩ r'.events := by
  cases r with
  | finished => simp [word]
  | facing l ahead =>
    obtain ⟨t, text⟩ := l
    by_cases hq : q t
    · simp only [word, hq]
      refine yields_takeWord.trans ?_
      grind
    · simp only [word, hq]
      grind [yields_failed]

theorem chainWithin_congr {separator : Token} {m n : Nat} {r : Reader} (hm : r.size ≤ m)
    (hn : r.size ≤ n) :
    chainWithin separator m (fun r _ => p r) r hm =
      chainWithin separator n (fun r _ => p r) r hn := by
  rw [chainWithin, chainWithin]
  congr 1
  funext a r₁ h₁
  split
  · rfl
  · congr 1
    funext _ r₂ h₂
    rw [chainWithin_congr (size_le_of_lt h₂ hm) (size_le_of_lt h₂ hn)]
termination_by r.size
decreasing_by exact h₂

/-- A chain goes on exactly as long as its separator follows. -/
theorem yields_chain {separator : Token} {as : List α} :
    (chain separator p r).Yields as r' ↔
      ∃ a r₁, (p r).Yields a r₁ ∧
        ((r₁.token? ≠ some separator ∧ as = [a] ∧ r₁ = r') ∨
          ∃ text r₂ others, r₁ = facing ⟨separator, text⟩ r₂.events ∧
            (chain separator p r₂).Yields others r' ∧ as = a :: others) := by
  unfold chain chainFrom
  rw [chainWithin, yields_bind]
  apply exists₂_congr
  intro a r₁
  rw [← exists_prop]
  apply exists_congr
  intro h₁
  split
  · next h =>
    have none := accept?_eq_none_iff.mp h
    simp only [yields_read]
    constructor
    · rintro ⟨rfl, rfl⟩
      exact Or.inl ⟨none, rfl, rfl⟩
    · rintro (⟨-, rfl, rfl⟩ | ⟨text, r₂, others, rfl, -⟩)
      · exact ⟨rfl, rfl⟩
      · exact absurd rfl none
  · next taken h =>
    have some : ¬ r₁.token? ≠ some separator := fun hn => by simp [accept?_eq_none_iff.mpr hn] at h
    simp only [some, false_and, false_or]
    refine yields_thenPhrase.trans ?_
    constructor
    · rintro ⟨_, r₂, h₂, hr⟩
      obtain ⟨text, rfl⟩ := (yields_of_accept? h).mp (yields_relax.mp h₂)
      obtain ⟨others, ho, rfl⟩ := yields_map.mp hr
      rw [chainWithin_congr _ (Nat.le_refl _)] at ho
      exact ⟨text, r₂, others, rfl, ho, rfl⟩
    · rintro ⟨text, r₂, others, hr, ho, rfl⟩
      have h₂ := (yields_of_accept? (u := ()) h).mpr ⟨text, hr⟩
      refine ⟨(), r₂, yields_relax.mpr h₂, yields_map.mpr ⟨others, ?_, rfl⟩⟩
      rwa [chainWithin_congr _ (Nat.le_refl _)]

end Phrase

namespace Trail

open Reader Reading

variable {α β : Type} {a : α} {b : β} {r r' : Reader}

@[simp] theorem yields_pure {a' : α} :
    ((pure a' : Trail α) r).Yields a r' ↔ a' = a ∧ r = r' :=
  yields_stay

theorem yields_bind {x : Trail α} {f : α → Trail β} :
    ((x >>= f) r).Yields b r' ↔ ∃ a r₁, (x r).Yields a r₁ ∧ (f a r₁).Yields b r' :=
  Reading.yields_andThen

@[simp] theorem yields_lift {p : Phrase α} :
    ((liftM p : Trail α) r).Yields a r' ↔ (p r).Yields a r' :=
  yields_loosen

theorem yields_lift_bind {p : Phrase α} {f : α → Trail β} :
    (((liftM p : Trail α) >>= f) r).Yields b r' ↔
      ∃ a r₁, (p r).Yields a r₁ ∧ (f a r₁).Yields b r' := by
  simp only [yields_bind, yields_lift]

@[simp] theorem yields_fail {f : ParseFault} : ((fail f : Trail α) r).Yields a r' ↔ False :=
  yields_failed

@[simp] theorem yields_unexpected {e : Expectation} :
    ((unexpected e : Trail α) r).Yields a r' ↔ False :=
  yields_failed

theorem peek_bind (f : Option Token → Trail β) (r : Reader) : (peek >>= f) r = f r.token? r := by
  change (f r.token? r).relax (Nat.le_refl _) = f r.token? r
  cases f r.token? r <;> rfl

theorem yields_peek_bind {f : Option Token → Trail β} :
    ((peek >>= f) r).Yields b r' ↔ (f r.token? r).Yields b r' := by
  rw [peek_bind]

theorem yields_ite_peek {t : Token} {x y : Trail α} :
    ((peek >>= fun front => if front = some t then x else y) r).Yields a r' ↔
      (r.token? = some t ∧ (x r).Yields a r') ∨ (r.token? ≠ some t ∧ (y r).Yields a r') := by
  rw [yields_peek_bind]
  by_cases front : r.token? = some t
  · simp [front]
  · simp [front]

theorem yields_acceptAs {f : Token → Option α} {o : Option α} :
    (acceptAs f r).Yields o r' ↔
      (∃ l b, o = some b ∧ f l.token = some b ∧ r = facing l r'.events) ∨
        (o = none ∧ r.token?.bind f = none ∧ r = r') := by
  unfold acceptAs
  cases h : r.acceptAs? f with
  | none =>
    have none := acceptAs?_eq_none_iff.mp h
    simp only [yields_stay, none, true_and]
    constructor
    · rintro ⟨rfl, rfl⟩
      exact Or.inr ⟨rfl, rfl⟩
    · rintro (⟨l, b, -, hl, rfl⟩ | ⟨rfl, rfl⟩)
      · simp [acceptAs?, hl] at h
      · exact ⟨rfl, rfl⟩
  | some taken =>
    have some : r.token?.bind f ≠ none := fun hn => by simp [acceptAs?_eq_none_iff.mpr hn] at h
    simp only [yields_loosen, yields_map, yields_of_acceptAs? h, some, false_and, and_false,
      or_false]
    grind

theorem accept_eq_map (t : Token) (r : Reader) :
    accept t r =
      (acceptAs (fun u => if u = t then some () else none) r).map Option.isSome := by
  unfold accept acceptAs accept?
  cases r.acceptAs? fun u => if u = t then some () else none with
  | none => rfl
  | some taken => cases taken <;> rfl

theorem yields_accept {t : Token} {taken : Bool} :
    (accept t r).Yields taken r' ↔
      (taken = true ∧ ∃ text, r = facing ⟨t, text⟩ r'.events) ∨
        (taken = false ∧ r.token? ≠ some t ∧ r = r') := by
  have other_iff := (acceptAs?_eq_none_iff (r := r)).symm.trans (accept?_eq_none_iff (t := t))
  rw [accept_eq_map, Reading.yields_map]
  simp only [yields_acceptAs, other_iff]
  constructor
  · rintro ⟨_, ⟨l, b, rfl, hl, same⟩ | ⟨rfl, other, same⟩, rfl⟩
    · exact .inl ⟨rfl, exists_facing_iff.mp ⟨l, hl, same⟩⟩
    · exact .inr ⟨rfl, other, same⟩
  · rintro (⟨rfl, faced⟩ | ⟨rfl, other, same⟩)
    · obtain ⟨l, hl, same⟩ := exists_facing_iff.mpr faced
      exact ⟨some (), .inl ⟨l, (), rfl, hl, same⟩, rfl⟩
    · exact ⟨none, .inr ⟨rfl, other, same⟩, rfl⟩

theorem yields_ite_accept {t : Token} {x y : Trail α} :
    ((accept t >>= fun taken => if taken = true then x else y) r).Yields a r' ↔
      (∃ text r₁, r = facing ⟨t, text⟩ r₁.events ∧ (x r₁).Yields a r') ∨
        (r.token? ≠ some t ∧ (y r).Yields a r') := by
  simp only [yields_bind, yields_accept]
  constructor
  · rintro ⟨taken, r₁, ⟨rfl, text, rfl⟩ | ⟨rfl, other, rfl⟩, h⟩
    · exact Or.inl ⟨text, r₁, rfl, h⟩
    · exact Or.inr ⟨other, h⟩
  · rintro (⟨text, r₁, rfl, h⟩ | ⟨other, h⟩)
    · exact ⟨true, r₁, Or.inl ⟨rfl, text, rfl⟩, h⟩
    · exact ⟨false, r, Or.inr ⟨rfl, other, rfl⟩, h⟩

theorem yields_finish {u : Unit} : (finish r).Yields u r' ↔ r = finished ∧ r' = finished := by
  unfold finish
  rw [yields_peek_bind]
  cases r with
  | finished => simp [token?, eq_comm]
  | facing l ahead => simp [token?]

end Trail

end QueryTree
