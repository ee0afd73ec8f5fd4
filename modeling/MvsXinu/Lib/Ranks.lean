import Mathlib.Data.List.TakeWhile

/-!
# Lists by rank, and by arrival within a rank

The items of a list rise in rank; items of one rank stand in the order of their tickets,
the oldest last. `place` is the insertion that scans from the low end, and the item to be
served next is the last. Tickets are numbers handed out in turn.
-/

namespace MvsXinu.Ranks

set_option autoImplicit false

variable {Item : Type*}

/-- `low` is served after `high`. -/
def Below (rank : Item → Int) (since : Item → Nat) (low high : Item) : Prop :=
  rank low < rank high ∨ rank low = rank high ∧ since high < since low

def Ranked (rank : Item → Int) (since : Item → Nat) (items : List Item) : Prop :=
  items.Pairwise (Below rank since)

def lower (rank : Item → Int) (key : Int) (other : Item) : Bool := decide (rank other < key)

/-- The new item goes in front of the first one whose rank is not less than its own. -/
def place (rank : Item → Int) (key : Int) (item : Item) (items : List Item) : List Item :=
  items.takeWhile (lower rank key) ++
    item :: items.dropWhile (lower rank key)

theorem split_lower (rank : Item → Int) (key : Int) (items : List Item) :
    items = items.takeWhile (lower rank key) ++ items.dropWhile (lower rank key) :=
  List.takeWhile_append_dropWhile.symm

/-- Only the ranks of the items in the list matter. -/
theorem place_congr {rank otherRank : Item → Int} {items : List Item} (key : Int) (item : Item)
    (same : ∀ member ∈ items, otherRank member = rank member) :
    place otherRank key item items = place rank key item items := by
  have sameLower : ∀ member ∈ items, lower otherRank key member = lower rank key member := by
    intro member inItems
    rw [lower, lower, same member inItems]
  induction items with
  | nil => rfl
  | cons first rest ih =>
      have inner := ih (fun member inRest => same member (List.mem_cons_of_mem _ inRest))
        (fun member inRest => sameLower member (List.mem_cons_of_mem _ inRest))
      have atFirst := sameLower first List.mem_cons_self
      simp only [place] at inner ⊢
      by_cases goesOn : lower rank key first = true
      · rw [List.takeWhile_cons_of_pos goesOn, List.dropWhile_cons_of_pos goesOn,
          List.takeWhile_cons_of_pos (atFirst.trans goesOn),
          List.dropWhile_cons_of_pos (atFirst.trans goesOn), List.cons_append, inner,
          List.cons_append]
      · have stops : ¬ lower otherRank key first = true := by
          rw [atFirst]
          exact goesOn
        rw [List.takeWhile_cons_of_neg goesOn, List.dropWhile_cons_of_neg goesOn,
          List.takeWhile_cons_of_neg stops, List.dropWhile_cons_of_neg stops]

section Place

variable {rank : Item → Int} {since : Item → Nat} {item : Item} {items : List Item}

theorem place_perm (key : Int) : (place rank key item items).Perm (item :: items) := by
  have middle : (items.takeWhile (lower rank key) ++
      item :: items.dropWhile (lower rank key)).Perm
      (item :: (items.takeWhile (lower rank key) ++ items.dropWhile (lower rank key))) :=
    List.perm_middle
  rw [← split_lower] at middle
  exact middle

theorem mem_place (key : Int) (other : Item) :
    other ∈ place rank key item items ↔ other = item ∨ other ∈ items := by
  rw [(place_perm key).mem_iff, List.mem_cons]

theorem Ranked.rank_le {low high : Item} (below : Below rank since low high) :
    rank low ≤ rank high := by
  rcases below with less | same
  · omega
  · omega

/-- Where the scan stops, no rank is less than the key. -/
theorem Ranked.rank_of_dropWhile (ranked : Ranked rank since items) (key : Int) :
    ∀ other ∈ items.dropWhile (lower rank key), key ≤ rank other := by
  induction items with
  | nil =>
      intro other member
      exact absurd member List.not_mem_nil
  | cons first rest ih =>
      have inner := List.pairwise_cons.mp ranked
      intro other member
      by_cases less : rank first < key
      · have goesOn : lower rank key first = true := decide_eq_true less
        rw [List.dropWhile_cons_of_pos goesOn] at member
        exact ih inner.2 other member
      · have stops : ¬ lower rank key first = true := by
          simpa [lower] using less
        rw [List.dropWhile_cons_of_neg stops] at member
        rcases List.mem_cons.mp member with same | later
        · rw [same]
          omega
        · have rises := Ranked.rank_le (inner.1 other later)
          omega

/-- The newest item keeps the order: it goes behind the items of its own rank. -/
theorem Ranked.place (ranked : Ranked rank since items)
    (newest : ∀ other ∈ items, since other < since item) :
    Ranked rank since (Ranks.place rank (rank item) item items) := by
  have stops := ranked.rank_of_dropWhile (rank item)
  have inItems : ∀ other ∈ items.dropWhile (lower rank (rank item)),
      other ∈ items := fun other member => (List.dropWhile_sublist _).subset member
  have passed : ∀ other ∈ items.takeWhile (lower rank (rank item)), rank other < rank item := by
    intro other member
    have goesOn : lower rank (rank item) other = true := List.mem_takeWhile_imp member
    exact of_decide_eq_true goesOn
  rw [Ranked, split_lower rank (rank item) items] at ranked
  rcases List.pairwise_append.mp ranked with ⟨front, back, across⟩
  apply List.pairwise_append.mpr
  refine ⟨front, List.pairwise_cons.mpr ⟨?_, back⟩, ?_⟩
  · intro other member
    have high := stops other member
    have older := newest other (inItems other member)
    by_cases same : rank item = rank other
    · exact Or.inr ⟨same, older⟩
    · exact Or.inl (by omega)
  · intro other member later isLater
    rcases List.mem_cons.mp isLater with same | inBack
    · rw [same]
      exact Or.inl (passed other member)
    · exact across other member later inBack

theorem Ranked.congr {otherRank : Item → Int} {otherSince : Item → Nat}
    (ranked : Ranked rank since items)
    (sameRank : ∀ member ∈ items, otherRank member = rank member)
    (sameSince : ∀ member ∈ items, otherSince member = since member) :
    Ranked otherRank otherSince items := by
  apply List.Pairwise.imp_of_mem ?_ ranked
  intro low high inLow inHigh below
  rw [Below, sameRank low inLow, sameRank high inHigh, sameSince low inLow,
    sameSince high inHigh]
  exact below

theorem Ranked.last {top : Item} (ranked : Ranked rank since (items ++ [top])) :
    ∀ other ∈ items, Below rank since other top := by
  intro other member
  exact (List.pairwise_append.mp ranked).2.2 other member top (List.mem_singleton_self top)

end Place

/-! ## Tickets -/

/-- The ticket that each item holds, and how many were handed out. -/
structure Tickets (Item : Type*) where
  since : Item → Nat
  count : Nat

variable [DecidableEq Item]

def Tickets.take (tickets : Tickets Item) (item : Item) : Tickets Item where
  since := Function.update tickets.since item tickets.count
  count := tickets.count + 1

/-- The items take a ticket each, in this order. -/
def Tickets.takes (tickets : Tickets Item) (items : List Item) : Tickets Item :=
  items.foldl Tickets.take tickets

@[simp] theorem Tickets.takes_nil (tickets : Tickets Item) : tickets.takes [] = tickets := rfl

@[simp] theorem Tickets.takes_cons (tickets : Tickets Item) (item : Item) (items : List Item) :
    tickets.takes (item :: items) = (tickets.take item).takes items := rfl

theorem Tickets.takes_append (tickets : Tickets Item) (first second : List Item) :
    tickets.takes (first ++ second) = (tickets.takes first).takes second :=
  List.foldl_append

/-- A line in which everybody's ticket has been handed out. -/
structure Lined (rank : Item → Int) (tickets : Tickets Item) (items : List Item) : Prop where
  ranked : Ranked rank tickets.since items
  past : ∀ item ∈ items, tickets.since item < tickets.count

omit [DecidableEq Item] in
/-- Items leave, and those that stay keep their ranks. -/
theorem Lined.thin {rank otherRank : Item → Int} {tickets : Tickets Item}
    {items fewer : List Item}
    (lined : Lined rank tickets items) (part : fewer.Sublist items)
    (same : ∀ item ∈ fewer, otherRank item = rank item) : Lined otherRank tickets fewer where
  ranked := Ranked.congr (List.Pairwise.sublist part lined.ranked) same (fun _ _ => rfl)
  past := fun item member => lined.past item (part.subset member)

section Lines

variable {rank : Item → Int} {tickets : Tickets Item} {item : Item} {items : List Item}

theorem Lined.take (lined : Lined rank tickets items) (absent : item ∉ items) :
    Lined rank (tickets.take item) (Ranks.place rank (rank item) item items) := by
  have away : ∀ other ∈ items, other ≠ item := fun other member same => absent (same ▸ member)
  have kept : ∀ other ∈ items, (tickets.take item).since other = tickets.since other :=
    fun other member => Function.update_of_ne (away other member) _ _
  have own : (tickets.take item).since item = tickets.count := Function.update_self _ _ _
  have ranked : Ranked rank (tickets.take item).since items :=
    lined.ranked.congr (fun _ _ => rfl) kept
  constructor
  · apply ranked.place
    intro other member
    rw [kept other member, own]
    exact lined.past other member
  · intro other member
    show (tickets.take item).since other < tickets.count + 1
    rcases (mem_place _ other).mp member with same | old
    · rw [same, own]
      omega
    · rw [kept other old]
      have := lined.past other old
      omega

end Lines

end MvsXinu.Ranks
