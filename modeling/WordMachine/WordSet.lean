import WordMachine.Word

/-!
# Finite sets of words

A set of words is the strictly ascending list of its members, so equal sets are equal as data and
the members come in order.  `mem_insert`, `mem_erase` and `mem_insertAll` say what the operations
do to membership, and `eq_of_mem_iff` says that membership is all there is to a set.
-/

namespace WordMachine

/-- Puts a word into its place in an ascending list, unless it is there already. -/
def insertAscending (word : Word) : List Word → List Word
  | [] => [word]
  | head :: tail =>
    if word < head then word :: head :: tail
    else if word = head then head :: tail
    else head :: insertAscending word tail

theorem mem_insertAscending {word other : Word} {words : List Word} :
    other ∈ insertAscending word words ↔ other = word ∨ other ∈ words := by
  induction words with
  | nil => simp [insertAscending]
  | cons head tail ih =>
    rw [insertAscending]
    split
    · simp
    · split
      · rename_i heq
        simp [heq]
      · simp only [List.mem_cons, ih]
        exact or_left_comm

theorem pairwise_insertAscending
    {word : Word} {words : List Word} (hwords : words.Pairwise (· < ·)) :
    (insertAscending word words).Pairwise (· < ·) := by
  induction words with
  | nil => simp [insertAscending]
  | cons head tail ih =>
    have htail := List.pairwise_cons.mp hwords
    rw [insertAscending]
    split
    · rename_i hlt
      refine List.pairwise_cons.mpr ⟨fun other hother => ?_, hwords⟩
      rcases List.mem_cons.mp hother with rfl | hother
      · exact hlt
      · exact UInt16.lt_trans hlt (htail.1 other hother)
    · split
      · exact hwords
      · rename_i hnlt hne
        refine List.pairwise_cons.mpr ⟨fun other hother => ?_, ih htail.2⟩
        rcases mem_insertAscending.mp hother with rfl | hother
        · exact UInt16.lt_of_le_of_ne (UInt16.not_lt.mp hnlt) (Ne.symm hne)
        · exact htail.1 other hother

theorem head_le_of_mem
    {head word : Word} {tail : List Word} (hhead : ∀ other ∈ tail, head < other)
    (hmem : word ∈ head :: tail) : head ≤ word := by
  rcases List.mem_cons.mp hmem with heq | htail
  · exact UInt16.le_of_eq heq.symm
  · exact UInt16.le_of_lt (hhead word htail)

/-- Ascending lists with the same members are equal. -/
theorem eq_of_pairwise_of_mem_iff
    {first second : List Word}
    (hfirst : first.Pairwise (· < ·)) (hsecond : second.Pairwise (· < ·))
    (hmem : ∀ word, word ∈ first ↔ word ∈ second) : first = second := by
  induction first generalizing second with
  | nil =>
    symm
    exact List.eq_nil_iff_forall_not_mem.mpr fun word hword => by
      simpa using (hmem word).mpr hword
  | cons head tail ih =>
    obtain ⟨hhead, htail⟩ := List.pairwise_cons.mp hfirst
    cases second with
    | nil => simpa using hmem head
    | cons head' tail' =>
      obtain ⟨hhead', htail'⟩ := List.pairwise_cons.mp hsecond
      have hle : head' ≤ head := head_le_of_mem hhead' ((hmem head).mp List.mem_cons_self)
      have hge : head ≤ head' := head_le_of_mem hhead ((hmem head').mpr List.mem_cons_self)
      obtain rfl : head = head' := UInt16.le_antisymm hge hle
      have hrest : ∀ word, word ∈ tail ↔ word ∈ tail' := by
        intro word
        constructor
        · intro hword
          have hne : word ≠ head := (UInt16.ne_of_lt (hhead word hword)).symm
          have hcons := (hmem word).mp (List.mem_cons_of_mem head hword)
          exact (List.mem_cons.mp hcons).resolve_left hne
        · intro hword
          have hne : word ≠ head := (UInt16.ne_of_lt (hhead' word hword)).symm
          have hcons := (hmem word).mpr (List.mem_cons_of_mem head hword)
          exact (List.mem_cons.mp hcons).resolve_left hne
      rw [ih htail htail' hrest]

/-- A finite set of words. -/
structure WordSet where
  /-- The members in ascending order. -/
  toList : List Word
  /-- The list has no repetition and is in order. -/
  ascending : toList.Pairwise (· < ·)
  deriving DecidableEq

namespace WordSet

instance : Membership Word WordSet where
  mem set word := word ∈ set.toList

/-- The set without members. -/
def empty : WordSet where
  toList := []
  ascending := List.Pairwise.nil

/-- Adds a word. -/
def insert (set : WordSet) (word : Word) : WordSet where
  toList := insertAscending word set.toList
  ascending := pairwise_insertAscending set.ascending

/-- Takes a word away. -/
def erase (set : WordSet) (word : Word) : WordSet where
  toList := set.toList.filter (· != word)
  ascending := set.ascending.filter _

/-- Adds every word of a list. -/
def insertAll (set : WordSet) (words : List Word) : WordSet :=
  words.foldl insert set

@[simp]
theorem mem_toList {set : WordSet} {word : Word} : word ∈ set.toList ↔ word ∈ set :=
  Iff.rfl

/-- Sets with the same members are equal. -/
theorem eq_of_mem_iff
    {first second : WordSet} (hmem : ∀ word, word ∈ first ↔ word ∈ second) :
    first = second := by
  have hlist : first.toList = second.toList :=
    eq_of_pairwise_of_mem_iff first.ascending second.ascending hmem
  cases first
  cases second
  cases hlist
  rfl

@[simp]
theorem not_mem_empty {word : Word} : word ∉ empty :=
  List.not_mem_nil

@[simp]
theorem mem_insert {set : WordSet} {word other : Word} :
    other ∈ set.insert word ↔ other = word ∨ other ∈ set :=
  mem_insertAscending

@[simp]
theorem mem_erase {set : WordSet} {word other : Word} :
    other ∈ set.erase word ↔ other ∈ set ∧ other ≠ word := by
  simp [← mem_toList, erase]

@[simp]
theorem mem_insertAll {set : WordSet} {words : List Word} {other : Word} :
    other ∈ set.insertAll words ↔ other ∈ words ∨ other ∈ set := by
  induction words generalizing set with
  | nil => simp [insertAll]
  | cons word words ih =>
    have hrest : other ∈ (set.insert word).insertAll words ↔
        other ∈ words ∨ other ∈ set.insert word := ih
    simp only [insertAll, List.foldl_cons] at hrest ⊢
    rw [hrest, mem_insert, List.mem_cons]
    exact or_left_comm.trans or_assoc.symm

end WordSet

end WordMachine
