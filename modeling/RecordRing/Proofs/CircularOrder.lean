import RecordRing.Proofs.Distance

/-!
# The circular order of identifiers

A set of identifiers is listed in ascending order and read as a circle: the last one is followed by
the first.  `nextOf` and `previousOf` walk the circle, and `ownerOf` names the identifier that owns
a key, the first one at the key or after it.

The main statements put the three in terms of arcs: no identifier lies between one and its next
(`not_insideOpen_nextOf`), and an identifier owns exactly the keys between its previous one and
itself (`insideHalfOpen_previousOf_iff`).
-/

namespace RecordRing

/-- Identifiers in strictly ascending order. -/
def Ascending (ids : List Token) : Prop := ids.Pairwise (· < ·)

instance (ids : List Token) : Decidable (Ascending ids) :=
  inferInstanceAs (Decidable (ids.Pairwise (· < ·)))

/-- The identifier after a position: the first greater one, and else the smallest. -/
def nextOf (ids : List Token) (id : Token) : Token :=
  (ids.find? fun other => id < other).getD (ids.headD id)

/-- The identifier before a position: the last smaller one, and else the greatest. -/
def previousOf (ids : List Token) (id : Token) : Token :=
  (ids.reverse.find? fun other => other < id).getD (ids.reverse.headD id)

/-- The owner of a key: the first identifier at the key or after it, and else the smallest. -/
def ownerOf (ids : List Token) (key : Token) : Token :=
  (ids.find? fun other => key ≤ other).getD (ids.headD key)

variable {ids : List Token} {a b c id key : Token}

/-- What a search finds first comes before everything else that it accepts. -/
theorem eq_or_rel_of_find? {α : Type} {R : α → α → Prop} {p : α → Bool} {items : List α} {a b : α}
    (sorted : items.Pairwise R) (found : items.find? p = some a) (mem : b ∈ items)
    (accepted : p b = true) : a = b ∨ R a b := by
  induction items with
  | nil => simp at mem
  | cons head rest ih =>
      rw [List.pairwise_cons] at sorted
      cases hp : p head with
      | true =>
          have ha : head = a := by simpa [List.find?_cons, hp] using found
          subst ha
          rcases List.mem_cons.1 mem with rfl | hb
          · exact Or.inl rfl
          · exact Or.inr (sorted.1 b hb)
      | false =>
          have hrest : rest.find? p = some a := by simpa [List.find?_cons, hp] using found
          rcases List.mem_cons.1 mem with rfl | hb
          · rw [hp] at accepted
            exact absurd accepted (by simp)
          · exact ih sorted.2 hrest hb

theorem eq_or_rel_headD {R : Token → Token → Prop} (sorted : ids.Pairwise R) (mem : b ∈ ids)
    (d : Token) : ids.headD d = b ∨ R (ids.headD d) b := by
  cases ids with
  | nil => simp at mem
  | cons head rest =>
      rcases List.mem_cons.1 mem with rfl | hb
      · exact Or.inl rfl
      · exact Or.inr ((List.pairwise_cons.1 sorted).1 b hb)

theorem headD_mem (mem : b ∈ ids) (d : Token) : ids.headD d ∈ ids := by
  cases ids with
  | nil => simp at mem
  | cons head rest => simp

theorem find?_getD_mem {p : Token → Bool} (mem : b ∈ ids) (d : Token) :
    (ids.find? p).getD (ids.headD d) ∈ ids := by
  cases h : ids.find? p with
  | none => exact headD_mem mem d
  | some found => exact List.mem_of_find?_eq_some h

theorem nextOf_mem (mem : b ∈ ids) (id : Token) : nextOf ids id ∈ ids := find?_getD_mem mem id

theorem ownerOf_mem (mem : b ∈ ids) (key : Token) : ownerOf ids key ∈ ids := find?_getD_mem mem key

theorem previousOf_mem (mem : b ∈ ids) (id : Token) : previousOf ids id ∈ ids :=
  List.mem_reverse.1 (find?_getD_mem (List.mem_reverse.2 mem) id)

/-- The owner of a key is the identifier that comes first clockwise of it. -/
theorem gap_ownerOf_le (ascending : Ascending ids) (mem : c ∈ ids) (key : Token) :
    key.gap (ownerOf ids key) ≤ key.gap c := by
  have hc := Token.gap_cases key c
  have hcR := c.toNat_lt
  cases h : ids.find? fun other => key ≤ other with
  | some owner =>
      have howner : key ≤ owner := by simpa using List.find?_some h
      have heq : ownerOf ids key = owner := by simp [ownerOf, h]
      have ho := Token.gap_cases key owner
      have hoR := owner.toNat_lt
      rw [Token.le_iff_toNat] at howner
      rw [heq]
      by_cases hkc : key ≤ c
      · have hoc : owner.toNat ≤ c.toNat := by
          rcases eq_or_rel_of_find? ascending h mem (by simpa using hkc) with rfl | hlt
          · exact Nat.le_refl _
          · exact Nat.le_of_lt (Token.lt_iff_toNat.1 hlt)
        omega
      · rw [Token.le_iff_toNat] at hkc
        omega
  | none =>
      have hkc : ¬ key ≤ c := by simpa using List.find?_eq_none.1 h c mem
      have heq : ownerOf ids key = ids.headD key := by simp [ownerOf, h]
      have hhead : (ids.headD key).toNat ≤ c.toNat := by
        rcases eq_or_rel_headD ascending mem key with hsame | hlt
        · exact Nat.le_of_eq (congrArg Token.toNat hsame)
        · exact Nat.le_of_lt (Token.lt_iff_toNat.1 hlt)
      have ho := Token.gap_cases key (ids.headD key)
      rw [Token.le_iff_toNat] at hkc
      rw [heq]
      omega

/-- Only the owner is that near. -/
theorem eq_ownerOf (ascending : Ascending ids) (mem : id ∈ ids)
    (near : ∀ c ∈ ids, key.gap id ≤ key.gap c) : id = ownerOf ids key :=
  Token.gap_left_inj (Nat.le_antisymm (near _ (ownerOf_mem mem key))
    (gap_ownerOf_le ascending mem key))

/-- No identifier lies between a position and the identifier after it. -/
theorem not_insideOpen_nextOf (ascending : Ascending ids) (mem : c ∈ ids) (id : Token) :
    ¬ insideOpen id (nextOf ids id) c = true := by
  rw [insideOpen_iff]
  have hc := Token.gap_cases id c
  have hcR := c.toNat_lt
  have hne : c ≠ id ↔ c.toNat ≠ id.toNat := not_congr Token.toNat_inj.symm
  cases h : ids.find? fun other => id < other with
  | some next =>
      have hnext : id < next := by simpa using List.find?_some h
      have heq : nextOf ids id = next := by simp [nextOf, h]
      have hn := Token.gap_cases id next
      have hidn : id = next ↔ id.toNat = next.toNat := Token.toNat_inj.symm
      rw [Token.lt_iff_toNat] at hnext
      rw [heq, hne, hidn]
      by_cases hkc : id < c
      · have hnc : next.toNat ≤ c.toNat := by
          rcases eq_or_rel_of_find? ascending h mem (by simpa using hkc) with rfl | hlt
          · exact Nat.le_refl _
          · exact Nat.le_of_lt (Token.lt_iff_toNat.1 hlt)
        omega
      · rw [Token.lt_iff_toNat] at hkc
        have hnR := next.toNat_lt
        omega
  | none =>
      have hkc : ¬ id < c := by simpa using List.find?_eq_none.1 h c mem
      have heq : nextOf ids id = ids.headD id := by simp [nextOf, h]
      have hhead : (ids.headD id).toNat ≤ c.toNat := by
        rcases eq_or_rel_headD ascending mem id with hsame | hlt
        · exact Nat.le_of_eq (congrArg Token.toNat hsame)
        · exact Nat.le_of_lt (Token.lt_iff_toNat.1 hlt)
      have hn := Token.gap_cases id (ids.headD id)
      have hidn : id = ids.headD id ↔ id.toNat = (ids.headD id).toNat := Token.toNat_inj.symm
      rw [Token.lt_iff_toNat] at hkc
      rw [heq, hne, hidn]
      omega

/-- The end of an arc that starts at a position and holds no identifier inside is the identifier
after the position. -/
theorem eq_nextOf (ascending : Ascending ids) (mem : b ∈ ids)
    (empty : ∀ c ∈ ids, ¬ insideOpen a b c = true) : b = nextOf ids a := by
  have hb := empty _ (nextOf_mem mem a)
  have hn := not_insideOpen_nextOf ascending mem a
  rw [insideOpen_iff] at hb hn
  by_cases hba : b = a
  · by_cases hna : nextOf ids a = a
    · rw [hba, hna]
    · exact absurd ⟨hna, Or.inl hba.symm⟩ hb
  · by_cases hna : nextOf ids a = a
    · exact absurd ⟨hba, Or.inl hna.symm⟩ hn
    · exact Token.gap_left_inj (a := a)
        (Nat.le_antisymm (by simpa [hna, Ne.symm hba] using hb)
          (by simpa [hba, Ne.symm hna] using hn))

/-- Between the identifier before a position and the position there is no identifier. -/
theorem not_insideOpen_previousOf (ascending : Ascending ids) (mem : c ∈ ids) (id : Token) :
    ¬ insideOpen (previousOf ids id) id c = true := by
  have sorted : ids.reverse.Pairwise fun x y => y < x := List.pairwise_reverse.2 ascending
  have memr : c ∈ ids.reverse := List.mem_reverse.2 mem
  rw [insideOpen_iff]
  have hcR := c.toNat_lt
  cases h : ids.reverse.find? fun other => other < id with
  | some before =>
      have hbefore : before < id := by simpa using List.find?_some h
      have heq : previousOf ids id = before := by simp [previousOf, h]
      have hb := Token.gap_cases before c
      have hi := Token.gap_cases before id
      have hne : c ≠ before ↔ c.toNat ≠ before.toNat := not_congr Token.toNat_inj.symm
      have hidb : before = id ↔ before.toNat = id.toNat := Token.toNat_inj.symm
      have hiR := id.toNat_lt
      rw [Token.lt_iff_toNat] at hbefore
      rw [heq, hne, hidb]
      by_cases hkc : c < id
      · have hcb : c.toNat ≤ before.toNat := by
          rcases eq_or_rel_of_find? sorted h memr (by simpa using hkc) with rfl | hlt
          · exact Nat.le_refl _
          · exact Nat.le_of_lt (Token.lt_iff_toNat.1 hlt)
        omega
      · rw [Token.lt_iff_toNat] at hkc
        omega
  | none =>
      have hkc : ¬ c < id := by simpa using List.find?_eq_none.1 h c memr
      have heq : previousOf ids id = ids.reverse.headD id := by simp [previousOf, h]
      have hhead : c.toNat ≤ (ids.reverse.headD id).toNat := by
        rcases eq_or_rel_headD sorted memr id with hsame | hlt
        · exact Nat.le_of_eq (congrArg Token.toNat hsame.symm)
        · exact Nat.le_of_lt (Token.lt_iff_toNat.1 hlt)
      have hb := Token.gap_cases (ids.reverse.headD id) c
      have hi := Token.gap_cases (ids.reverse.headD id) id
      have hne : c ≠ ids.reverse.headD id ↔ c.toNat ≠ (ids.reverse.headD id).toNat :=
        not_congr Token.toNat_inj.symm
      have hidb : ids.reverse.headD id = id ↔ (ids.reverse.headD id).toNat = id.toNat :=
        Token.toNat_inj.symm
      have hbR := (ids.reverse.headD id).toNat_lt
      rw [Token.lt_iff_toNat] at hkc
      rw [heq, hne, hidb]
      omega

/-- An identifier comes after the one before it. -/
theorem nextOf_previousOf (ascending : Ascending ids) (mem : id ∈ ids) :
    nextOf ids (previousOf ids id) = id :=
  (eq_nextOf ascending mem fun _ hc => not_insideOpen_previousOf ascending hc id).symm

/-- An identifier comes before the one after it. -/
theorem previousOf_nextOf (ascending : Ascending ids) (mem : id ∈ ids) :
    previousOf ids (nextOf ids id) = id := by
  have hmem := previousOf_mem (nextOf_mem mem id) (nextOf ids id)
  have hnext := fun c (hc : c ∈ ids) => not_insideOpen_nextOf ascending hc id
  have hprevious := fun c (hc : c ∈ ids) =>
    not_insideOpen_previousOf ascending hc (nextOf ids id)
  by_cases hself : id = nextOf ids id
  · -- there is no other identifier
    exact Decidable.byContradiction fun hne =>
      hnext _ hmem (insideOpen_iff.2 ⟨hne, Or.inl hself⟩)
  · refine eq_of_not_insideOpen ?_ hself (hprevious _ mem) (hnext _ hmem)
    intro hturn
    exact hprevious _ mem (insideOpen_iff.2 ⟨fun heq => hself (heq.trans hturn), Or.inl hturn⟩)

/-- A key on the arc that ends at an identifier, with no identifier inside, is owned by its end. -/
theorem ownerOf_eq_of_insideHalfOpen (ascending : Ascending ids) (mem : b ∈ ids)
    (empty : ∀ c ∈ ids, ¬ insideOpen a b c = true) (inside : insideHalfOpen a b key = true) :
    ownerOf ids key = b := by
  refine (eq_ownerOf ascending mem fun c hc => ?_).symm
  have hcb := empty c hc
  rw [insideOpen_iff] at hcb
  rw [insideHalfOpen_iff] at inside
  have hab := Token.gap_cases a b
  have hac := Token.gap_cases a c
  have hak := Token.gap_cases a key
  have hkb := Token.gap_cases key b
  have hkc := Token.gap_cases key c
  have haR := a.toNat_lt
  have hbR := b.toNat_lt
  have hcR := c.toNat_lt
  have hkR := key.toNat_lt
  simp only [← Token.toNat_inj, ne_eq] at hcb inside
  omega

/-- An identifier owns exactly the keys between the one before it and itself. -/
theorem insideHalfOpen_previousOf_iff (ascending : Ascending ids) (mem : id ∈ ids) (key : Token) :
    insideHalfOpen (previousOf ids id) id key = true ↔ id = ownerOf ids key := by
  constructor
  · intro inside
    exact (ownerOf_eq_of_insideHalfOpen ascending mem
      (fun _ hc => not_insideOpen_previousOf ascending hc id) inside).symm
  · intro howner
    have hnear := gap_ownerOf_le ascending (previousOf_mem mem id) key
    rw [← howner] at hnear
    rw [insideHalfOpen_iff]
    have hpi := Token.gap_cases (previousOf ids id) id
    have hpk := Token.gap_cases (previousOf ids id) key
    have hki := Token.gap_cases key id
    have hkp := Token.gap_cases key (previousOf ids id)
    have hpR := (previousOf ids id).toNat_lt
    have hiR := id.toNat_lt
    have hkR := key.toNat_lt
    simp only [← Token.toNat_inj, ne_eq]
    omega

/-! ## Company -/

/-- Of several identifiers one is another than a given one. -/
theorem exists_ne (ascending : Ascending ids) (several : 2 ≤ ids.length) (id : Token) :
    ∃ c ∈ ids, c ≠ id := by
  cases ids with
  | nil => simp at several
  | cons first rest =>
      cases rest with
      | nil => simp at several
      | cons second rest =>
          have hless := (List.pairwise_cons.1 ascending).1 second (List.mem_cons_self ..)
          by_cases h : first = id
          · refine ⟨second, by simp, ?_⟩
            rintro rfl
            rw [Token.lt_iff_toNat, h] at hless
            exact Nat.lt_irrefl _ hless
          · exact ⟨first, List.mem_cons_self .., h⟩

theorem nextOf_ne (ascending : Ascending ids) (mem : c ∈ ids) (other : c ≠ id) :
    nextOf ids id ≠ id := fun hself =>
  not_insideOpen_nextOf ascending mem id (insideOpen_iff.2 ⟨other, Or.inl hself.symm⟩)

theorem previousOf_ne (ascending : Ascending ids) (mem : c ∈ ids) (other : c ≠ id) :
    previousOf ids id ≠ id := fun hself =>
  not_insideOpen_previousOf ascending mem id
    (insideOpen_iff.2 ⟨fun h => other (h.trans hself), Or.inl hself⟩)

theorem eq_of_nextOf_eq (ascending : Ascending ids) (hb : b ∈ ids) (hc : c ∈ ids)
    (h : nextOf ids b = nextOf ids c) : b = c := by
  rw [← previousOf_nextOf ascending hb, h, previousOf_nextOf ascending hc]

/-- The identifier before a position lies on every arc that ends there and starts farther away. -/
theorem insideOpen_previousOf (ascending : Ascending ids) (mem : a ∈ ids)
    (other : previousOf ids b ≠ a) : insideOpen a b (previousOf ids b) = true := by
  by_cases hturn : a = b
  · exact insideOpen_iff.2 ⟨other, Or.inl hturn⟩
  · refine Decidable.byContradiction fun houtside => other ?_
    exact (eq_of_not_insideOpen hturn (previousOf_ne ascending mem hturn) houtside
      (not_insideOpen_previousOf ascending mem b)).symm

/-- The predecessor that the circular order gives to an identifier: none, if it is the only one. -/
def beforeOf? (ids : List Token) (id : Token) : Option Token :=
  if ids = [id] then none else some (previousOf ids id)

theorem beforeOf?_of_ne (mem : c ∈ ids) (other : c ≠ id) :
    beforeOf? ids id = some (previousOf ids id) := by
  refine if_neg fun halone => other ?_
  rw [halone] at mem
  exact List.mem_singleton.1 mem

/-- An identifier that comes after itself has no predecessor. -/
theorem beforeOf?_of_alone (ascending : Ascending ids) (mem : id ∈ ids)
    (alone : nextOf ids id = id) : beforeOf? ids id = none := by
  refine if_pos ?_
  have hfew : ¬ 2 ≤ ids.length := fun several => by
    obtain ⟨c, hc, hne⟩ := exists_ne ascending several id
    exact nextOf_ne ascending hc hne alone
  match ids, mem with
  | [first], mem => rw [List.mem_singleton.1 mem]
  | first :: second :: rest, _ => exact absurd (by simp) hfew

/-! ## One identifier less -/

section Erase

variable {gone : Token}

theorem Ascending.nodup (ascending : Ascending ids) : ids.Nodup :=
  ascending.imp fun {x y} hless heq => by
    rw [Token.lt_iff_toNat, heq] at hless
    exact Nat.lt_irrefl _ hless

theorem Ascending.erase (ascending : Ascending ids) (gone : Token) : Ascending (ids.erase gone) :=
  List.Pairwise.sublist List.erase_sublist ascending

theorem mem_erase_iff (ascending : Ascending ids) : id ∈ ids.erase gone ↔ id ≠ gone ∧ id ∈ ids :=
  ascending.nodup.mem_erase_iff

/-- An identifier that leaves is missed by the one before it only. -/
theorem nextOf_erase (ascending : Ascending ids) (mem : id ∈ ids) (other : nextOf ids id ≠ gone) :
    nextOf (ids.erase gone) id = nextOf ids id :=
  (eq_nextOf (ascending.erase gone)
    ((mem_erase_iff ascending).2 ⟨other, nextOf_mem mem id⟩)
    fun _ hc => not_insideOpen_nextOf ascending (List.mem_of_mem_erase hc) id).symm

/-- The one before an identifier that leaves is followed by the one after it. -/
theorem nextOf_erase_of_eq (ascending : Ascending ids) (mem : id ∈ ids) (other : id ≠ gone)
    (leads : nextOf ids id = gone) : nextOf (ids.erase gone) id = nextOf ids gone := by
  have hheir := nextOf_ne ascending mem other
  refine (eq_nextOf (ascending.erase gone)
    ((mem_erase_iff ascending).2 ⟨hheir, nextOf_mem mem gone⟩) fun c hc => ?_).symm
  obtain ⟨hne, hmem⟩ := (mem_erase_iff ascending).1 hc
  have hfirst := not_insideOpen_nextOf ascending hmem id
  have hbeyond := not_insideOpen_nextOf ascending (nextOf_mem mem gone) id
  have hsecond := not_insideOpen_nextOf ascending hmem gone
  rw [leads] at hfirst hbeyond
  generalize nextOf ids gone = heir at *
  rw [insideOpen_iff] at *
  have hig := Token.gap_cases id gone
  have hic := Token.gap_cases id c
  have hih := Token.gap_cases id heir
  have hgc := Token.gap_cases gone c
  have hgh := Token.gap_cases gone heir
  have hiR := id.toNat_lt
  have hgR := gone.toNat_lt
  have hcR := c.toNat_lt
  have hhR := heir.toNat_lt
  simp only [← Token.toNat_inj, ne_eq] at *
  omega

theorem previousOf_erase (ascending : Ascending ids) (mem : id ∈ ids)
    (other : previousOf ids id ≠ gone) (stays : id ≠ gone) :
    previousOf (ids.erase gone) id = previousOf ids id := by
  have hmem := previousOf_mem mem id
  have hnext := nextOf_previousOf ascending mem
  have hsame : nextOf (ids.erase gone) (previousOf ids id) = nextOf ids (previousOf ids id) :=
    nextOf_erase ascending hmem (by rwa [hnext])
  rw [hnext] at hsame
  have hback := previousOf_nextOf (ascending.erase gone)
    ((mem_erase_iff ascending).2 ⟨other, hmem⟩)
  rwa [hsame] at hback

end Erase

/-! ## Putting identifiers in order -/

/-- Identifiers in ascending order. -/
def inOrder (members : List Token) : List Token := members.mergeSort fun a b => decide (a ≤ b)

@[simp] theorem mem_inOrder {members : List Token} : id ∈ inOrder members ↔ id ∈ members :=
  List.mem_mergeSort

theorem length_inOrder (members : List Token) : (inOrder members).length = members.length :=
  List.length_mergeSort members

theorem ascending_inOrder {members : List Token} (distinct : members.Nodup) :
    Ascending (inOrder members) := by
  have hsorted : (inOrder members).Pairwise fun a b => decide (a ≤ b) = true := by
    refine List.pairwise_mergeSort (fun a b c hab hbc => ?_) (fun a b => ?_) members
    · rw [decide_eq_true_eq, Token.le_iff_toNat] at hab hbc ⊢
      exact Nat.le_trans hab hbc
    · rw [Bool.or_eq_true, decide_eq_true_eq, decide_eq_true_eq, Token.le_iff_toNat,
        Token.le_iff_toNat]
      exact Nat.le_total ..
  have hdistinct : (inOrder members).Nodup := (List.mergeSort_perm members _).nodup_iff.2 distinct
  refine hsorted.imp₂ (fun a b hle hne => ?_) hdistinct
  rw [decide_eq_true_eq, Token.le_iff_toNat] at hle
  exact Token.lt_iff_toNat.2 (Nat.lt_of_le_of_ne hle fun heq => hne (Token.toNat_inj.1 heq))

end RecordRing
