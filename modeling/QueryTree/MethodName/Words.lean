import QueryTree.Text.Letter

/-! # Words of a method name

A method name such as `findFirst10ByAgeOrderByName` falls into a verb, a subject, a predicate and an
order. Each part has keywords of its own; all else is cut at capitals into humps, and a property
takes humps until a keyword follows.

Cutting never fails, and the words put together are the name again.
-/

namespace QueryTree.MethodName

open Text

/-- The part of a name that a word stands in. -/
inductive Part where
  | verb | subject | predicate | order
  deriving DecidableEq

/-- A word, and whether it was recognised as a keyword of its part. -/
structure Word where
  text : String
  keyword : Bool
  deriving DecidableEq

def subjectKeywords : List String := ["OrderBy", "By", "First", "Top"]

def connectors : List String := ["OrderBy", "And", "Or"]

/-- The keywords that may follow a property. A keyword stands before those that it extends. -/
def suffixes : List String :=
  ["IgnoreCase", "GreaterThanEqual", "GreaterThan", "LessThanEqual", "LessThan", "StartsWith",
   "EndsWith", "Contains", "Between", "Equals", "False", "True", "Null", "Like", "Not", "In"]

def orderKeywords : List String := ["Desc", "Asc"]

/-- Whether a keyword may end where `rest` follows. Digits may follow a bound on the number of
results. -/
def bounded (keyword : String) (rest : List Char) : Bool :=
  match rest with
  | [] => true
  | c :: _ => isCapital c || c.isDigit && (keyword == "First" || keyword == "Top")

def keywordAt? (keywords : List String) (cs : List Char) : Option String :=
  keywords.find? fun k => k.toList.isPrefixOf cs && bounded k (cs.drop k.toList.length)

theorem keywordAt?_mem {keywords : List String} {cs : List Char} {k : String}
    (h : keywordAt? keywords cs = some k) : k ∈ keywords :=
  List.mem_of_find?_eq_some h

theorem keywordAt?_isPrefix {keywords : List String} {cs : List Char} {k : String}
    (h : keywordAt? keywords cs = some k) : k.toList <+: cs := by
  have := List.find?_some h
  simp only [Bool.and_eq_true] at this
  exact List.isPrefixOf_iff_prefix.mp this.1

theorem length_pos_of_keywordAt? {keywords : List String} (nonempty : "" ∉ keywords)
    {cs : List Char} {k : String} (h : keywordAt? keywords cs = some k) : 0 < k.toList.length :=
  List.length_pos_iff.mpr fun hk =>
    nonempty (String.toList_eq_nil_iff.mp hk ▸ keywordAt?_mem h)

theorem length_sub_lt {word cs : List Char} (front : word <+: cs) (pos : 0 < word.length) :
    cs.length - word.length < cs.length := by
  have := front.length_le
  omega

def suffixRun (cs : List Char) : Bool :=
  if cs = [] ∨ (keywordAt? connectors cs).isSome then true
  else
    match h : keywordAt? suffixes cs with
    | none => false
    | some k =>
      have := length_sub_lt (keywordAt?_isPrefix h)
        (length_pos_of_keywordAt? (by decide +kernel) h)
      suffixRun (cs.drop k.toList.length)
termination_by cs.length

/-- A suffix at the front with nothing but suffixes after it, up to the end or to a connector. -/
def suffixAt? (cs : List Char) : Option String :=
  match keywordAt? suffixes cs with
  | some k => if suffixRun (cs.drop k.toList.length) then some k else none
  | none => none

theorem keywordAt?_of_suffixAt? {cs : List Char} {k : String} (h : suffixAt? cs = some k) :
    keywordAt? suffixes cs = some k := by
  unfold suffixAt? at h
  split at h
  · next h' =>
    split at h
    · exact h ▸ h'
    · cases h
  · cases h

/-- The characters before the next capital. A capital right after an underscore is not looked at. -/
def beforeCapital (glued : Bool) : List Char → List Char
  | [] => []
  | c :: rest => if isCapital c && !glued then [] else c :: beforeCapital (c == '_') rest

def hump : List Char → List Char
  | [] => []
  | c :: rest => c :: beforeCapital (c == '_') rest

theorem beforeCapital_isPrefix (glued : Bool) (cs : List Char) : beforeCapital glued cs <+: cs := by
  induction cs generalizing glued with
  | nil => exact List.nil_prefix
  | cons c rest ih =>
    unfold beforeCapital
    split
    · exact List.nil_prefix
    · exact List.cons_prefix_cons.mpr ⟨rfl, ih _⟩

theorem hump_isPrefix (cs : List Char) : hump cs <+: cs := by
  cases cs with
  | nil => exact List.nil_prefix
  | cons c rest => exact List.cons_prefix_cons.mpr ⟨rfl, beforeCapital_isPrefix _ _⟩

theorem length_hump_pos {cs : List Char} (h : cs ≠ []) : 0 < (hump cs).length := by
  cases cs with
  | nil => exact absurd rfl h
  | cons c rest => exact Nat.zero_lt_succ _

/-- Humps up to the first place between two humps where `ends` holds. -/
def property (ends : List Char → Bool) (cs : List Char) : List Char :=
  if h : cs.drop (hump cs).length = [] ∨ ends (cs.drop (hump cs).length) then hump cs
  else
    have := length_sub_lt (hump_isPrefix cs) (length_hump_pos fun hcs => h (by simp [hcs]))
    hump cs ++ property ends (cs.drop (hump cs).length)
termination_by cs.length

theorem property_isPrefix (ends : List Char → Bool) (cs : List Char) : property ends cs <+: cs := by
  fun_induction property ends cs with
  | case1 => exact hump_isPrefix _
  | case2 cs _ _ ih =>
    have whole := List.prefix_iff_eq_append.mp (hump_isPrefix cs)
    have both := (List.prefix_append_right_inj (hump cs)).mpr ih
    rwa [whole] at both

theorem length_property_pos {ends : List Char → Bool} {cs : List Char} (h : cs ≠ []) :
    0 < (property ends cs).length := by
  have := length_hump_pos h
  unfold property
  split
  · exact this
  · simp only [List.length_append]
    omega

/-- The next word, whether it is a keyword, and the part that the word after it stands in. -/
structure Cut where
  word : List Char
  keyword : Bool
  part : Part

def Part.afterSubject (keyword : String) : Part :=
  if keyword = "By" then .predicate else if keyword = "OrderBy" then .order else .subject

def Part.afterConnector (keyword : String) : Part :=
  if keyword = "OrderBy" then .order else .predicate

def Part.cut : Part → List Char → Cut
  | .verb, cs =>
    let small := cs.takeWhile (!isCapital ·)
    ⟨if small = [] then hump cs else small, false, .subject⟩
  | .subject, cs =>
    let digits := cs.takeWhile Char.isDigit
    if digits ≠ [] then ⟨digits, false, .subject⟩
    else
      match keywordAt? subjectKeywords cs with
      | some k => ⟨k.toList, true, .afterSubject k⟩
      | none => ⟨hump cs, false, .subject⟩
  | .predicate, cs =>
    match keywordAt? connectors cs with
    | some k => ⟨k.toList, true, .afterConnector k⟩
    | none =>
      match suffixAt? cs with
      | some k => ⟨k.toList, true, .predicate⟩
      | none =>
        let ends rest := (keywordAt? connectors rest).isSome || (suffixAt? rest).isSome
        ⟨property ends cs, false, .predicate⟩
  | .order, cs =>
    match keywordAt? orderKeywords cs with
    | some k => ⟨k.toList, true, .order⟩
    | none => ⟨property (fun rest => (keywordAt? orderKeywords rest).isSome) cs, false, .order⟩

theorem Part.cut_isPrefix (p : Part) (cs : List Char) : (p.cut cs).word <+: cs := by
  cases p with
  | verb =>
    simp only [cut]
    split
    · exact hump_isPrefix cs
    · exact List.takeWhile_prefix _
  | subject =>
    simp only [cut]
    split
    · exact List.takeWhile_prefix _
    split
    · next h => exact keywordAt?_isPrefix h
    · exact hump_isPrefix cs
  | predicate =>
    simp only [cut]
    split
    · next h => exact keywordAt?_isPrefix h
    split
    · next h => exact keywordAt?_isPrefix (keywordAt?_of_suffixAt? h)
    · exact property_isPrefix _ cs
  | order =>
    simp only [cut]
    split
    · next h => exact keywordAt?_isPrefix h
    · exact property_isPrefix _ cs

theorem Part.length_cut_pos (p : Part) {cs : List Char} (h : cs ≠ []) :
    0 < (p.cut cs).word.length := by
  cases p with
  | verb =>
    simp only [cut]
    split
    · exact length_hump_pos h
    · next some => exact List.length_pos_iff.mpr some
  | subject =>
    simp only [cut]
    split
    · next some => exact List.length_pos_iff.mpr some
    split
    · next hk => exact length_pos_of_keywordAt? (by decide +kernel) hk
    · exact length_hump_pos h
  | predicate =>
    simp only [cut]
    split
    · next hk => exact length_pos_of_keywordAt? (by decide +kernel) hk
    split
    · next hk => exact length_pos_of_keywordAt? (by decide +kernel) (keywordAt?_of_suffixAt? hk)
    · exact length_property_pos h
  | order =>
    simp only [cut]
    split
    · next hk => exact length_pos_of_keywordAt? (by decide +kernel) hk
    · exact length_property_pos h

/-- The words from here on, each with the part that it stands in. -/
def placesFrom (p : Part) (cs : List Char) : List (Part × Word) :=
  if h : cs = [] then []
  else
    let cut := p.cut cs
    have := length_sub_lt (p.cut_isPrefix cs) (p.length_cut_pos h)
    (p, ⟨String.ofList cut.word, cut.keyword⟩) :: placesFrom cut.part (cs.drop cut.word.length)
termination_by cs.length

def wordsFrom (p : Part) (cs : List Char) : List Word := (placesFrom p cs).map Prod.snd

theorem wordsFrom_nil (p : Part) : wordsFrom p [] = [] := by
  rw [wordsFrom, placesFrom, dif_pos rfl, List.map_nil]

theorem wordsFrom_of_ne_nil (p : Part) {cs : List Char} (some : cs ≠ []) :
    wordsFrom p cs =
      ⟨String.ofList (p.cut cs).word, (p.cut cs).keyword⟩ ::
        wordsFrom (p.cut cs).part (cs.drop (p.cut cs).word.length) := by
  rw [wordsFrom, placesFrom, dif_neg some, List.map_cons, wordsFrom]

def words (method : String) : List String := (wordsFrom .verb method.toList).map Word.text

end QueryTree.MethodName
