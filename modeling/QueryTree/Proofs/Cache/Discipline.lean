import QueryTree.Proofs.Cache.Run

/-! # The discipline of a cache

What requests do to the entries of a cache, and when two answers of a run are one stored query. An
entry stays until the cache is cleared, and what is stored after a clearing has a serial number that
was not given out before.
-/

namespace QueryTree.Cache

variable {c c' : Cache} {key key' : Key} {entry : Entry} {calls : List Call}
  {result : Except Failure Answer}

section Lasting

theorem step_keeps {call : Call} (h : call ≠ .clear) (found : c.stored? key = some entry) :
    (c.step call).stored? key = some entry := by
  cases call with
  | ask r => exact (answer_looked c r).keeps found
  | clear => exact absurd rfl h

theorem run_keeps (h : .clear ∉ calls) (found : c.stored? key = some entry) :
    (c.run calls).stored? key = some entry := by
  apply run_preserves (P := fun c => c.stored? key = some entry) calls found
  intro c found call hcall
  exact step_keeps (ne_of_mem_of_not_mem hcall h) found

structure Since (n : Nat) (c : Cache) : Prop where
  next : n ≤ c.nextSerial
  entries : ∀ key entry, c.stored? key = some entry → n ≤ entry.serial

theorem since_clear (c : Cache) : Since c.nextSerial c.clear := by
  constructor
  · exact Nat.le_refl _
  · intro key entry found
    simp at found

namespace Since

variable {n m : Nat}

theorem mono (h : Since n c) (le : m ≤ n) : Since m c :=
  ⟨Nat.le_trans le h.next, fun key entry found => Nat.le_trans le (h.entries key entry found)⟩

theorem looked (h : Since n c) (l : Looked c key result c') : Since n c' := by
  cases l with
  | added =>
    constructor
    · exact Nat.le_succ_of_le h.next
    · intro key' entry found
      rw [stored?_insert] at found
      split at found
      · obtain rfl := Option.some.inj found
        exact h.next
      · exact h.entries key' entry found
  | _ => exact h

theorem step (h : Since n c) (call : Call) : Since n (c.step call) := by
  cases call with
  | ask r => exact h.looked (answer_looked c r)
  | clear => exact (since_clear c).mono h.next

theorem run (h : Since n c) (calls : List Call) : Since n (c.run calls) :=
  run_preserves calls h fun _ h call _ => h.step call

end Since

theorem Looked.nextSerial_le (l : Looked c key result c') : c.nextSerial ≤ c'.nextSerial := by
  cases l with
  | added => exact Nat.le_succ _
  | _ => exact Nat.le_refl _

theorem nextSerial_le_run (c : Cache) (calls : List Call) :
    c.nextSerial ≤ (c.run calls).nextSerial := by
  apply run_preserves (P := fun c' => c.nextSerial ≤ c'.nextSerial) calls (Nat.le_refl _)
  intro c' le call _
  cases call with
  | ask r => exact Nat.le_trans le (answer_looked c' r).nextSerial_le
  | clear => exact le

/-- A run with a clearing leaves nothing of what was there before. -/
theorem since_run (c : Cache) (h : .clear ∈ calls) : Since c.nextSerial (c.run calls) := by
  obtain ⟨before, after, rfl⟩ := List.append_of_mem h
  have cleared : Since c.nextSerial (c.run before).clear :=
    (since_clear _).mono (nextSerial_le_run c before)
  rw [run_append, run_cons]
  exact cleared.run after

end Lasting

section Identity

variable {a a' : Answer} {r r' : Request}

def Answer.Same (a a' : Answer) : Prop := ∃ serial, a.serial = some serial ∧ a'.serial = some serial

/-- Two answers of a run are one stored query exactly if they are to the same key, no clearing came
between them, and the first of them was stored. -/
theorem Sound.same_iff (h : c.Sound) (between : List Call) (first : (c.answer r).1 = .ok a)
    (second : (((c.answer r).2.run between).answer r').1 = .ok a') :
    a.Same a' ↔ r.key = r'.key ∧ .clear ∉ between ∧ (c.answer r).2.Holds r.key := by
  have l := looked_of_answer first
  have l' := looked_of_answer second
  have sound : (c.answer r).2.Sound := h.looked l
  have sound' : (((c.answer r).2.run between).answer r').2.Sound := (sound.run between).looked l'
  unfold Answer.Same
  rw [l.serial_eq, l'.serial_eq]
  simp only [Option.map_eq_some_iff]
  constructor
  · rintro ⟨serial, ⟨entry, found, rfl⟩, entry', found', same⟩
    have lasting : .clear ∉ between := by
      intro cleared
      have later := ((since_run (c.answer r).2 cleared).looked l').entries _ _ found'
      have earlier := sound.issued _ _ found
      omega
    have kept := l'.keeps (run_keeps lasting found)
    exact ⟨sound'.apart _ _ _ _ kept found' same.symm, lasting, holds_iff.mpr ⟨entry, found⟩⟩
  · rintro ⟨same, lasting, held⟩
    obtain ⟨entry, found⟩ := holds_iff.mp held
    have kept := l'.keeps (run_keeps lasting found)
    exact ⟨entry.serial, ⟨entry, found, rfl⟩, entry, same ▸ kept, rfl⟩

end Identity

section Discipline

/-- What may be relied on when `c` is asked. -/
structure Disciplined (c : Cache) : Prop where
  bounded : ∀ capacity ∈ c.settings.cacheCapacity, c.size ≤ capacity
  distinct : (c.entries.map Prod.fst).Nodup
  /-- What is found, and what has a fault, changes nothing. -/
  unchanged : ∀ r, c.Holds r.key ∨ (∃ e, r.key.resolve = .error e) → (c.answer r).2 = c
  /-- What is new is one more entry. -/
  added : ∀ r s, ¬ c.Holds r.key → r.key.resolve = .ok s → c.HasRoom →
    ∃ entry, entry.statement = s ∧ (c.answer r).2.entries = (r.key, entry) :: c.entries
  full : ∀ r, ¬ c.HasRoom → (c.answer r).2 = c
  /-- No entry is taken away or replaced. -/
  lasting : ∀ call, call ≠ .clear → ∀ key entry, c.stored? key = some entry →
    (c.step call).stored? key = some entry
  /-- A query of the wrong kind is kept like any other. -/
  wrongKind : ∀ kind text, (c.answer (.ofKind kind text)).1 = .error (.wrongKind kind text) →
    c.Holds (.text text) ∨ c.HasRoom → (c.answer (.ofKind kind text)).2.Holds (.text text)
  /-- Two answers are one stored query if they are to the same key, no clearing came between them,
  and the first of them was stored. -/
  identity : ∀ r r' between a a', (c.answer r).1 = .ok a →
    (((c.answer r).2.run between).answer r').1 = .ok a' →
      (a.Same a' ↔ r.key = r'.key ∧ .clear ∉ between ∧ (c.answer r).2.Holds r.key)

theorem Looked.holds {a : Answer} (l : Looked c key (.ok a) c') (h : c.Holds key ∨ c.HasRoom) :
    c'.Holds key := by
  cases l with
  | hit found => exact holds_iff.mpr ⟨_, found⟩
  | passed missing _ full => exact absurd h (not_or.mpr ⟨not_holds_iff.mpr missing, full⟩)
  | added => exact holds_iff.mpr ⟨_, stored?_insert.trans (if_pos rfl)⟩

theorem Looked.resolve_eq {e : Failure} (l : Looked c key (.error e) c') :
    key.resolve = .error e := by
  cases l with
  | faulty _ faulty => exact faulty

/-- A query is found to be of the wrong kind only after it was parsed. -/
theorem lookup_of_wrongKind {kind : StatementKind} {text : String}
    (wrong : (c.answer (.ofKind kind text)).1 = .error (.wrongKind kind text)) :
    ∃ a, Looked c (.text text) (.ok a) (c.answer (.ofKind kind text)).2 := by
  have l := lookup_looked c (.text text)
  rw [answer_ofKind] at wrong
  cases h : (c.lookup (.text text)).1 with
  | ok a => exact ⟨a, h ▸ l⟩
  | error e =>
    rw [h] at wrong l
    obtain rfl : e = .wrongKind kind text := Except.error.inj wrong
    have faulty := l.resolve_eq
    rw [Key.resolve] at faulty
    cases hp : parse text none <;> simp [hp, Except.mapError] at faulty

/-- Every cache of a run is disciplined, and its settings are those it started with. -/
theorem disciplined_run (settings : Settings) (history : List Call) :
    ((empty settings).run history).settings = settings ∧
      ((empty settings).run history).Disciplined := by
  have sound := sound_run settings history
  refine ⟨settings_run _ history, ?_⟩
  constructor
  · exact sound.fits
  · exact sound.distinct
  · rintro r (held | ⟨e, faulty⟩)
    · exact (answer_looked _ r).eq_of_holds held
    · exact (answer_looked _ r).eq_of_error faulty
  · intro r s missing resolved room
    rw [(answer_looked _ r).eq_insert missing resolved room]
    exact ⟨_, rfl, rfl⟩
  · intro r full
    exact (answer_looked _ r).eq_of_full full
  · intro call asked key entry found
    exact step_keeps asked found
  · intro kind text wrong h
    obtain ⟨a, l⟩ := lookup_of_wrongKind wrong
    exact l.holds h
  · intro r r' between a a' first second
    exact sound.same_iff between first second

end Discipline

end QueryTree.Cache
