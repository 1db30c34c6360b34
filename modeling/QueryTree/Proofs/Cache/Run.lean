import QueryTree.Cache.Basic
import QueryTree.Proofs.Fallible

/-! # Runs of a cache

A run takes a cache through requests and clearings. The ways in which a key can be looked up are
listed once; what every cache of a run satisfies follows from this list.
-/

namespace QueryTree.Cache

inductive Call where
  | ask (r : Request)
  | clear
  deriving DecidableEq

def step (c : Cache) : Call → Cache
  | .ask r => (c.answer r).2
  | .clear => c.clear

def run (c : Cache) (calls : List Call) : Cache := calls.foldl step c

def Request.key : Request → Key
  | .query text => .text text
  | .ofKind _ text => .text text
  | .derive method entity => .method entity method

def stored? (c : Cache) (key : Key) : Option Entry := c.entries.lookup key

def Holds (c : Cache) (key : Key) : Prop := (c.stored? key).isSome

/-- There is no capacity, or it is not reached. -/
def HasRoom (c : Cache) : Prop := ∀ capacity ∈ c.settings.cacheCapacity, c.size < capacity

variable {c c' : Cache} {key key' : Key} {entry : Entry} {s : Statement} {a : Answer}
  {result : Except Failure Answer}

section Entries

@[simp] theorem stored?_clear : c.clear.stored? key = none := rfl

theorem stored?_insert :
    (c.insert key s).stored? key' =
      if key' = key then some ⟨c.nextSerial, s⟩ else c.stored? key' := by
  by_cases same : key' = key
  · simp [stored?, insert, same]
  · have other : (key' == key) = false := by simpa using same
    simp [stored?, insert, List.lookup_cons, same, other]

theorem stored?_insert_of_ne (other : key' ≠ key) :
    (c.insert key s).stored? key' = c.stored? key' := by
  rw [stored?_insert, if_neg other]

theorem not_holds_iff : ¬ c.Holds key ↔ c.stored? key = none := by
  simp [Holds]

theorem holds_iff : c.Holds key ↔ ∃ entry, c.stored? key = some entry :=
  Option.isSome_iff_exists

theorem stored?_eq_none_iff : c.stored? key = none ↔ key ∉ c.entries.map Prod.fst := by
  simp only [stored?, List.lookup_eq_none_iff, List.mem_map, not_exists, not_and]
  constructor
  · rintro h p hp rfl
    simpa using h p hp
  · intro h p hp
    simpa using fun same => h p hp same.symm

theorem isFull_iff : c.isFull ↔ ¬ c.HasRoom := by
  unfold isFull HasRoom
  cases c.settings.cacheCapacity <;> simp

theorem run_cons (c : Cache) (call : Call) (calls : List Call) :
    c.run (call :: calls) = (c.step call).run calls := rfl

theorem run_append (c : Cache) (calls calls' : List Call) :
    c.run (calls ++ calls') = (c.run calls).run calls' :=
  List.foldl_append

theorem run_preserves {P : Cache → Prop} (calls : List Call) (h : P c)
    (kept : ∀ c, P c → ∀ call ∈ calls, P (c.step call)) : P (c.run calls) :=
  List.foldlRecOn calls step h kept

end Entries

section Lookup

/-- A key is found, its query has a fault, its query is too much for the cache, or is added. -/
inductive Looked (c : Cache) (key : Key) : Except Failure Answer → Cache → Prop where
  | hit {entry : Entry} : c.stored? key = some entry →
      Looked c key (.ok ⟨entry.statement, some entry.serial⟩) c
  | faulty {e : Failure} : c.stored? key = none → key.resolve = .error e → Looked c key (.error e) c
  | passed {s : Statement} : c.stored? key = none → key.resolve = .ok s → ¬ c.HasRoom →
      Looked c key (.ok ⟨s, none⟩) c
  | added {s : Statement} : c.stored? key = none → key.resolve = .ok s → c.HasRoom →
      Looked c key (.ok ⟨s, some c.nextSerial⟩) (c.insert key s)

theorem lookup_looked (c : Cache) (key : Key) : Looked c key (c.lookup key).1 (c.lookup key).2 := by
  unfold lookup
  split
  · next entry found => exact .hit found
  · next missing =>
    split
    · next e faulty => exact .faulty missing faulty
    · next s resolved =>
      split
      · next full => exact .passed missing resolved (isFull_iff.mp full)
      · next room => exact .added missing resolved (by simpa [isFull_iff] using room)

/-- The kind that is asked for makes no difference to the cache. -/
theorem answer_snd (c : Cache) (r : Request) : (c.answer r).2 = (c.lookup r.key).2 := by
  cases r <;> rfl

theorem answer_ofKind (c : Cache) (kind : StatementKind) (text : String) :
    (c.answer (.ofKind kind text)).1 = (c.lookup (.text text)).1.bind (Answer.ofKind kind text) :=
  rfl

theorem answer_looked (c : Cache) (r : Request) :
    Looked c r.key (c.lookup r.key).1 (c.answer r).2 := by
  rw [answer_snd]
  exact lookup_looked c r.key

theorem looked_of_answer {r : Request} (given : (c.answer r).1 = .ok a) :
    Looked c r.key (.ok a) (c.answer r).2 := by
  have found : (c.lookup r.key).1 = .ok a := by
    cases r with
    | query | derive => exact given
    | ofKind kind text =>
      obtain ⟨b, hb, same⟩ := Except.bind_eq_ok_iff.mp given
      unfold Answer.ofKind at same
      split at same
      · obtain rfl := Except.ok.inj same
        exact hb
      · cases same
  exact found ▸ answer_looked c r

namespace Looked

theorem settings_eq (h : Looked c key result c') : c'.settings = c.settings := by
  cases h <;> rfl

/-- No entry is replaced. -/
theorem keeps (h : Looked c key result c') (found : c.stored? key' = some entry) :
    c'.stored? key' = some entry := by
  cases h with
  | added missing =>
    rw [stored?_insert_of_ne, found]
    rintro rfl
    rw [missing] at found
    cases found
  | _ => exact found

/-- The serial number of an answer is that of the entry that is kept for it. -/
theorem serial_eq (h : Looked c key (.ok a) c') : a.serial = (c'.stored? key).map Entry.serial := by
  cases h with
  | hit found => simp [found]
  | passed missing => simp [missing]
  | added => simp [stored?_insert]

theorem eq_of_holds (h : Looked c key result c') (found : c.Holds key) : c' = c := by
  cases h with
  | added missing => exact absurd found (not_holds_iff.mpr missing)
  | _ => rfl

theorem eq_of_error (h : Looked c key result c') {e : Failure} (faulty : key.resolve = .error e) :
    c' = c := by
  cases h with
  | added _ resolved =>
    rw [faulty] at resolved
    cases resolved
  | _ => rfl

theorem eq_of_full (h : Looked c key result c') (full : ¬ c.HasRoom) : c' = c := by
  cases h with
  | added _ _ room => exact absurd room full
  | _ => rfl

theorem eq_insert (h : Looked c key result c') (missing : ¬ c.Holds key)
    (resolved : key.resolve = .ok s) (room : c.HasRoom) : c' = c.insert key s := by
  cases h with
  | hit found => exact absurd (holds_iff.mpr ⟨_, found⟩) missing
  | faulty _ faulty =>
    rw [resolved] at faulty
    cases faulty
  | passed _ _ full => exact absurd room full
  | added _ resolved' =>
    rw [resolved] at resolved'
    rw [Except.ok.inj resolved']

end Looked

end Lookup

section Sound

/-- Every entry is the statement of its key, each key and each serial number occurs once, the serial
numbers have been given out before, and the capacity is kept. -/
structure Sound (c : Cache) : Prop where
  resolved : ∀ key entry, c.stored? key = some entry → key.resolve = .ok entry.statement
  distinct : (c.entries.map Prod.fst).Nodup
  apart : ∀ key key' entry entry', c.stored? key = some entry → c.stored? key' = some entry' →
    entry.serial = entry'.serial → key = key'
  issued : ∀ key entry, c.stored? key = some entry → entry.serial < c.nextSerial
  fits : ∀ capacity ∈ c.settings.cacheCapacity, c.size ≤ capacity

theorem sound_of_nil (h : c.entries = []) : c.Sound := by
  have none (key : Key) : c.stored? key = none := by
    rw [stored?, h]
    rfl
  constructor
  · intro key entry found
    simp [none] at found
  · simp [h]
  · intro key key' entry entry' found
    simp [none] at found
  · intro key entry found
    simp [none] at found
  · simp [size, h]

theorem Sound.insert (h : c.Sound) (missing : c.stored? key = none) (resolved : key.resolve = .ok s)
    (room : c.HasRoom) : (c.insert key s).Sound := by
  have cases {key' : Key} {entry : Entry} (found : (c.insert key s).stored? key' = some entry) :
      (key' = key ∧ entry = ⟨c.nextSerial, s⟩) ∨ c.stored? key' = some entry := by
    rw [stored?_insert] at found
    split at found
    · next same => exact .inl ⟨same, (Option.some.inj found).symm⟩
    · exact .inr found
  constructor
  · intro key' entry found
    rcases cases found with ⟨rfl, rfl⟩ | old
    · exact resolved
    · exact h.resolved key' entry old
  · exact List.nodup_cons.mpr ⟨stored?_eq_none_iff.mp missing, h.distinct⟩
  · intro key₁ key₂ entry₁ entry₂ found₁ found₂ same
    rcases cases found₁ with ⟨rfl, rfl⟩ | old₁ <;> rcases cases found₂ with ⟨rfl, rfl⟩ | old₂
    · rfl
    · exact absurd (h.issued key₂ entry₂ old₂) (by simp [← same])
    · exact absurd (h.issued key₁ entry₁ old₁) (by simp [same])
    · exact h.apart key₁ key₂ entry₁ entry₂ old₁ old₂ same
  · intro key' entry found
    rcases cases found with ⟨rfl, rfl⟩ | old
    · exact Nat.lt_succ_self _
    · exact Nat.lt_succ_of_lt (h.issued key' entry old)
  · exact room

theorem Sound.looked (h : c.Sound) (l : Looked c key result c') : c'.Sound := by
  cases l with
  | added missing resolved room => exact h.insert missing resolved room
  | _ => exact h

theorem Sound.step (h : c.Sound) (call : Call) : (c.step call).Sound := by
  cases call with
  | ask r => exact h.looked (answer_looked c r)
  | clear => exact sound_of_nil rfl

theorem Sound.run (h : c.Sound) (calls : List Call) : (c.run calls).Sound :=
  run_preserves calls h fun _ h call _ => h.step call

/-- Every cache of a run that starts without entries is sound. -/
theorem sound_run (settings : Settings) (calls : List Call) : ((empty settings).run calls).Sound :=
  (sound_of_nil rfl).run calls

theorem settings_step (c : Cache) (call : Call) : (c.step call).settings = c.settings := by
  cases call with
  | ask r => exact (answer_looked c r).settings_eq
  | clear => rfl

theorem settings_run (c : Cache) (calls : List Call) : (c.run calls).settings = c.settings :=
  run_preserves (P := fun c' => c'.settings = c.settings) calls rfl
    fun c' same call _ => (settings_step c' call).trans same

end Sound

section Transparency

/-- The answer to a request, found without a cache. -/
def Request.direct : Request → Except Failure Statement
  | .query text => (parse text none).mapError .parse
  | .ofKind kind text =>
    match parse text none with
    | .ok s => if s.kind = kind then .ok s else .error (.wrongKind kind text)
    | .error e => .error (.parse e)
  | .derive method entity => (QueryTree.derive method entity).mapError .method

theorem Sound.statement_eq (h : c.Sound) (l : Looked c key result c') :
    result.map Answer.statement = key.resolve := by
  cases l with
  | hit found => exact (h.resolved key _ found).symm
  | faulty _ faulty => exact faulty.symm
  | passed _ resolved => exact resolved.symm
  | added _ resolved => exact resolved.symm

theorem statement_ofKind (x : Except Failure Answer) (kind : StatementKind) (text : String) :
    (x.bind (Answer.ofKind kind text)).map Answer.statement =
      (x.map Answer.statement).bind fun s =>
        if s.kind = kind then .ok s else .error (.wrongKind kind text) := by
  cases x with
  | error e => rfl
  | ok a =>
    by_cases same : a.statement.kind = kind
    · simp [Except.bind, Except.map, Answer.ofKind, same]
    · simp [Except.bind, Except.map, Answer.ofKind, same]

/-- Whatever was asked before, a request has the answer that it has without a cache. -/
theorem answer_run_eq_direct (settings : Settings) (history : List Call) (r : Request) :
    (((empty settings).run history).answer r).1.map Answer.statement = r.direct := by
  have found := (sound_run settings history).statement_eq (lookup_looked _ r.key)
  cases r with
  | query text => exact found
  | derive method entity => exact found
  | ofKind kind text =>
    simp only [Request.key] at found
    rw [answer_ofKind, statement_ofKind, found]
    simp only [Key.resolve, Request.direct]
    cases parse text none <;> rfl

end Transparency

end QueryTree.Cache
