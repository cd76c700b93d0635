import HostSteward.Bus
import HostSteward.Proofs.Lists
import Mathlib.Algebra.GroupWithZero.Nat
import Mathlib.Data.List.Basic
import Mathlib.Data.Nat.Init

/-!
# What subscribers hear

A bus is used by any number of parties in any order. What is published while somebody is
subscribed falls into blocks, one for each time that this subscriber asked: the notices that it
took then, or those that it was told it had lost. After them come the notices that were
overwritten since, which it will be told about, and those that it can still take.
-/

namespace HostSteward

namespace Reception

def notice? : Reception → Option Notice
  | .notice n => some n
  | .nothing | .lagged _ | .closed => none

def lost : Reception → Nat
  | .lagged count => count
  | .notice _ | .nothing | .closed => 0

def isLag : Reception → Bool
  | .lagged _ => true
  | .notice _ | .nothing | .closed => false

end Reception

namespace Bus

inductive Deed (κ : Type) where
  | published (n : Notice)
  | refused (n : Notice)
  | subscribed (name : κ) (filter : NoticeFilter)
  | unsubscribed (name : κ)
  | asked (name : κ) (r : Reception)
  | closed

section Steps

variable {κ : Type} [LT κ] [DecidableLT κ] [DecidableEq κ] [LinearKey κ]

/-- Nobody publishes on a bus that is closed, nor subscribes to it. -/
inductive Step (b : Bus κ) : Deed κ → Bus κ → Prop
  | published {n : Notice} {b' : Bus κ} (hopen : b.closed = false) (h : b.publish? n = some b') :
      Step b (.published n) b'
  | refused {n : Notice} (hopen : b.closed = false) (h : b.publish? n = none) :
      Step b (.refused n) b
  | subscribed (name : κ) (filter : NoticeFilter) (hopen : b.closed = false) :
      Step b (.subscribed name filter) (b.subscribe name filter)
  | unsubscribed (name : κ) : Step b (.unsubscribed name) (b.unsubscribe name)
  | asked {name : κ} {r : Reception} {b' : Bus κ} (h : b.receive? name = some (r, b')) :
      Step b (.asked name r) b'
  | closed : Step b .closed b.close

inductive Run (b : Bus κ) : List (Deed κ) → Bus κ → Prop
  | nil : Run b [] b
  | snoc {deeds : List (Deed κ)} {deed : Deed κ} {b' b'' : Bus κ} (h : Run b deeds b')
      (hstep : Step b' deed b'') : Run b (deeds ++ [deed]) b''

end Steps

/-- A moment at which a subscriber asked: how many notices had been published since it subscribed,
whether the bus was closed, and what it was answered. -/
structure Asking where
  published : Nat
  isClosed : Bool
  reception : Reception

section Deeds

variable {κ : Type}

namespace Deed

def notice? : Deed κ → Option Notice
  | .published n => some n
  | _ => none

def closes : Deed κ → Bool
  | .closed => true
  | _ => false

def ends [DecidableEq κ] (name : κ) : Deed κ → Bool
  | .subscribed other _ | .unsubscribed other => other = name
  | _ => false

def asking? [DecidableEq κ] (name : κ) (published : Nat) (isClosed : Bool) : Deed κ → Option Asking
  | .asked other r => if other = name then some ⟨published, isClosed, r⟩ else none
  | _ => none

end Deed

def publications (deeds : List (Deed κ)) : List Notice := deeds.filterMap Deed.notice?

/-- All the times that the subscriber of a name asked, from a moment on at which so many notices had
been published. -/
def askings [DecidableEq κ] (name : κ) (published : Nat) (isClosed : Bool) : List (Deed κ) → List Asking
  | [] => []
  | deed :: deeds =>
    (deed.asking? name published isClosed).toList ++
      askings name (published + deed.notice?.toList.length) (isClosed || deed.closes) deeds

theorem publications_append (deeds : List (Deed κ)) (deed : Deed κ) :
    publications (deeds ++ [deed]) = publications deeds ++ deed.notice?.toList :=
  List.filterMap_append_singleton Deed.notice? deeds deed

theorem askings_append [DecidableEq κ] (name : κ) (published : Nat) (isClosed : Bool) (deeds : List (Deed κ))
    (deed : Deed κ) : askings name published isClosed (deeds ++ [deed]) =
      askings name published isClosed deeds ++
        (deed.asking? name (published + (publications deeds).length)
          (isClosed || deeds.any Deed.closes)).toList := by
  induction deeds generalizing published isClosed with
  | nil => simp [askings, publications]
  | cons d rest ih =>
    have hlen : (publications (d :: rest)).length =
        d.notice?.toList.length + (publications rest).length := by
      unfold publications
      cases hd : d.notice? <;> simp [hd, Nat.add_comm]
    rw [List.cons_append, askings, ih, askings, hlen, List.any_cons, List.append_assoc,
      Nat.add_assoc, Bool.or_assoc]

end Deeds

structure Block where
  asking : Asking
  notices : List Notice

def covered (blocks : List Block) : List Notice := blocks.flatMap Block.notices

/-- The notices that were taken, whether they were accepted or skipped. -/
def taken (blocks : List Block) : List Notice :=
  covered (blocks.filter fun block => !block.asking.reception.isLag)

/-- A block is right for a subscriber of a bus with `size` places that had `reached` notices behind
it. Lost notices are all those that gave way to later ones before they were taken; other notices are
taken while they are retained, up to the first that is accepted. -/
def Block.Fits (size : Nat) (f : NoticeFilter) (reached : Nat) (block : Block) : Prop :=
  match block.asking.reception with
  | .lagged count => 0 < count ∧ block.notices.length = count ∧
      reached + count + size = block.asking.published
  | .notice n => block.asking.published ≤ reached + size ∧ f.accepts n = true ∧
      ∃ skipped, block.notices = skipped ++ [n] ∧ ∀ m ∈ skipped, f.accepts m = false
  | .nothing => block.asking.isClosed = false ∧ block.asking.published ≤ reached + size ∧
      reached + block.notices.length = block.asking.published ∧
      ∀ m ∈ block.notices, f.accepts m = false
  | .closed => block.asking.isClosed = true ∧ block.asking.published ≤ reached + size ∧
      reached + block.notices.length = block.asking.published ∧
      ∀ m ∈ block.notices, f.accepts m = false

inductive Explained (size : Nat) (f : NoticeFilter) : List Block → Prop
  | nil : Explained size f []
  | snoc {blocks : List Block} {block : Block} (h : Explained size f blocks)
      (hfits : block.Fits size f (covered blocks).length) : Explained size f (blocks ++ [block])

/-! ## Blocks -/

theorem covered_append (blocks : List Block) (block : Block) :
    covered (blocks ++ [block]) = covered blocks ++ block.notices := by
  simp [covered]

section Blocks

variable {size : Nat} {f : NoticeFilter} {blocks : List Block}

/-- What was answered to a subscriber is what it took, less what its filter rejects. -/
theorem Explained.returned (h : Explained size f blocks) :
    blocks.filterMap (fun block => block.asking.reception.notice?) =
      (taken blocks).filter f.accepts := by
  induction h with
  | nil => rfl
  | @snoc blocks block h hfits ih =>
    have htaken : taken (blocks ++ [block]) =
        taken blocks ++ if block.asking.reception.isLag then [] else block.notices := by
      unfold taken
      cases hlag : block.asking.reception.isLag <;> simp [covered, hlag]
    rw [List.filterMap_append, ih, htaken, List.filter_append]
    congr 1
    unfold Block.Fits at hfits
    cases hr : block.asking.reception with
    | lagged count => simp [hr, Reception.notice?, Reception.isLag]
    | notice n =>
      rw [hr] at hfits
      obtain ⟨-, hn, skipped, hnotices, hskipped⟩ := hfits
      have hnone : skipped.filter f.accepts = [] :=
        List.filter_eq_nil_iff.2 fun m hm => by simp [hskipped m hm]
      simp [hr, Reception.notice?, Reception.isLag, hnotices, hnone, hn]
    | nothing | closed =>
      rw [hr] at hfits
      obtain ⟨-, -, -, hskipped⟩ := hfits
      have hnone : block.notices.filter f.accepts = [] :=
        List.filter_eq_nil_iff.2 fun m hm => by simp [hskipped m hm]
      simp [hr, Reception.notice?, Reception.isLag, hnone]

/-- What a subscriber has behind it was taken or reported as lost. -/
theorem Explained.length_covered (h : Explained size f blocks) :
    (covered blocks).length =
      (taken blocks).length + (blocks.map fun block => block.asking.reception.lost).sum := by
  induction h with
  | nil => rfl
  | @snoc blocks block h hfits ih =>
    have hblock : block.notices.length =
        (if block.asking.reception.isLag then [] else block.notices).length +
          block.asking.reception.lost := by
      unfold Block.Fits at hfits
      cases hr : block.asking.reception with
      | lagged count =>
        rw [hr] at hfits
        simp [Reception.isLag, Reception.lost, hfits.2.1]
      | notice n => simp [Reception.isLag, Reception.lost]
      | nothing => simp [Reception.isLag, Reception.lost]
      | closed => simp [Reception.isLag, Reception.lost]
    have htaken : (taken (blocks ++ [block])).length = (taken blocks).length +
        (if block.asking.reception.isLag then [] else block.notices).length := by
      unfold taken
      cases hlag : block.asking.reception.isLag <;> simp [covered, hlag]
    rw [covered_append, List.length_append, htaken, List.map_append, List.sum_append]
    simp only [List.map_cons, List.map_nil, List.sum_cons, List.sum_nil]
    omega

theorem Explained.fits (h : Explained size f blocks) {earlier later : List Block} {block : Block}
    (hsplit : blocks = earlier ++ block :: later) :
    block.Fits size f (covered earlier).length := by
  induction h generalizing later with
  | nil => simp at hsplit
  | @snoc blocks last h hfits ih =>
    rcases List.eq_nil_or_concat later with rfl | ⟨rest, last', rfl⟩
    · obtain ⟨rfl, hlast⟩ := List.append_inj' hsplit rfl
      obtain rfl := List.head_eq_of_cons_eq hlast
      exact hfits
    · have hsplit' : blocks ++ [last] = (earlier ++ block :: rest) ++ [last'] := by
        rw [hsplit, List.concat_eq_append]
        simp
      exact ih (List.append_inj' hsplit' rfl).1

end Blocks

/-! ## Runs -/

theorem firstAccepted_some {f : NoticeFilter} {position : Nat} {l : List Notice} {n : Notice}
    {p : Nat} (h : firstAccepted f position l = (some n, p)) :
    ∃ skipped rest, l = skipped ++ n :: rest ∧ (∀ m ∈ skipped, f.accepts m = false) ∧
      f.accepts n = true ∧ p = position + skipped.length + 1 := by
  induction l generalizing position with
  | nil => simp [firstAccepted] at h
  | cons m rest ih =>
    rw [firstAccepted] at h
    by_cases hm : f.accepts m
    · rw [if_pos hm] at h
      obtain ⟨hn, hp⟩ := Prod.mk.inj h
      obtain rfl := Option.some.inj hn
      exact ⟨[], rest, rfl, by simp, hm, hp.symm⟩
    · rw [if_neg hm] at h
      obtain ⟨skipped, rest', hl, hskipped, hn, hp⟩ := ih h
      refine ⟨m :: skipped, rest', by rw [hl]; rfl, ?_, hn, ?_⟩
      · exact List.forall_mem_cons.2 ⟨Bool.eq_false_iff.2 hm, hskipped⟩
      · rw [hp, List.length_cons]
        omega

theorem firstAccepted_none {f : NoticeFilter} {position : Nat} {l : List Notice} {p : Nat}
    (h : firstAccepted f position l = (none, p)) :
    (∀ m ∈ l, f.accepts m = false) ∧ p = position + l.length := by
  induction l generalizing position with
  | nil =>
    obtain ⟨-, hp⟩ := Prod.mk.inj h
    exact ⟨by simp, hp.symm⟩
  | cons m rest ih =>
    rw [firstAccepted] at h
    by_cases hm : f.accepts m
    · rw [if_pos hm] at h
      cases (Prod.mk.inj h).1
    · rw [if_neg hm] at h
      obtain ⟨hrest, hp⟩ := ih h
      refine ⟨List.forall_mem_cons.2 ⟨Bool.eq_false_iff.2 hm, hrest⟩, ?_⟩
      rw [hp, List.length_cons]
      omega

section Runs

variable {κ : Type} [LT κ]

def unread (b : Bus κ) (s : Subscription) : List Notice := b.retained.drop (s.position - b.oldest)

/-- No more notices are retained than there are places, and none gives way before all are taken. -/
structure Sound (b : Bus κ) : Prop where
  retained : b.retained.length ≤ b.size
  full : 0 < b.oldest → b.retained.length = b.size

theorem publish?_cases {b b' : Bus κ} {n : Notice} (h : b.publish? n = some b') :
    (b.retained.length < b.size ∧ b' = { b with retained := b.retained ++ [n] }) ∨
    (b.size ≤ b.retained.length ∧
      b' = { b with oldest := b.oldest + 1, retained := (b.retained ++ [n]).drop 1 }) := by
  have hlen : (b.retained ++ [n]).length = b.retained.length + 1 := List.length_append
  unfold publish? at h
  by_cases hnone : b.subscriptions.isEmpty
  · rw [if_pos hnone] at h
    cases h
  · rw [if_neg hnone] at h
    by_cases hfull : b.size < (b.retained ++ [n]).length
    · simp only [if_pos hfull] at h
      exact Or.inr ⟨by omega, (Option.some.inj h).symm⟩
    · simp only [if_neg hfull] at h
      exact Or.inl ⟨by omega, (Option.some.inj h).symm⟩

theorem Sound.publish {b b' : Bus κ} {n : Notice} (h : b.Sound) (hpub : b.publish? n = some b') :
    b'.Sound := by
  have hretained := h.retained
  have hfull := h.full
  rcases publish?_cases hpub with ⟨hroom, rfl⟩ | ⟨hroom, rfl⟩
  · refine ⟨?_, fun hlost => ?_⟩
    · simp only [List.length_append, List.length_singleton]
      omega
    · have hsame := hfull hlost
      omega
  · refine ⟨?_, fun _ => ?_⟩
    · simp only [List.length_drop, List.length_append, List.length_singleton]
      omega
    · simp only [List.length_drop, List.length_append, List.length_singleton]
      omega

/-- What can be taken from a bus. -/
theorem take_cases {b : Bus κ} {s s' : Subscription} {r : Reception} (h : b.take s = (r, s')) :
    (s.position < b.oldest ∧ r = .lagged (b.oldest - s.position) ∧
      s' = { s with position := b.oldest }) ∨
    (b.oldest ≤ s.position ∧ ∃ skipped n rest, b.unread s = skipped ++ n :: rest ∧
      (∀ m ∈ skipped, s.filter.accepts m = false) ∧ s.filter.accepts n = true ∧ r = .notice n ∧
      s' = { s with position := s.position + skipped.length + 1 }) ∨
    (b.oldest ≤ s.position ∧ (∀ m ∈ b.unread s, s.filter.accepts m = false) ∧
      r = (if b.closed then .closed else .nothing) ∧
      s' = { s with position := s.position + (b.unread s).length }) := by
  unfold take at h
  by_cases hlate : s.position < b.oldest
  · rw [if_pos hlate] at h
    obtain ⟨hr, hs⟩ := Prod.mk.inj h
    exact Or.inl ⟨hlate, hr.symm, hs.symm⟩
  · rw [if_neg hlate] at h
    have hin : b.oldest ≤ s.position := Nat.not_lt.1 hlate
    cases hfirst : firstAccepted s.filter s.position (b.retained.drop (s.position - b.oldest)) with
    | mk found p =>
      rw [hfirst] at h
      cases found with
      | some n =>
        obtain ⟨skipped, rest, hl, hskipped, hn, hp⟩ := firstAccepted_some hfirst
        obtain ⟨hr, hs⟩ := Prod.mk.inj h
        exact Or.inr (Or.inl ⟨hin, skipped, n, rest, hl, hskipped, hn, hr.symm, by rw [← hs, hp]⟩)
      | none =>
        obtain ⟨hskipped, hp⟩ := firstAccepted_none hfirst
        obtain ⟨hr, hs⟩ := Prod.mk.inj h
        exact Or.inr (Or.inr ⟨hin, hskipped, hr.symm, by rw [← hs, hp]; rfl⟩)

/-- A notice that is published is there for every subscriber to take, in place of the oldest one if
the bus is full. -/
theorem unread_publish {b b' : Bus κ} {s : Subscription} {n : Notice}
    (hreached : s.position ≤ b.next) (hpub : b.publish? n = some b') :
    ∃ lost, b.unread s ++ [n] = lost ++ b'.unread s ∧
      b'.oldest - s.position = b.oldest - s.position + lost.length := by
  have hnext : s.position ≤ b.oldest + b.retained.length := hreached
  rcases publish?_cases hpub with ⟨hroom, rfl⟩ | ⟨hroom, rfl⟩
  · refine ⟨[], ?_, rfl⟩
    have hin : s.position - b.oldest ≤ b.retained.length := by omega
    unfold unread
    rw [List.nil_append, List.drop_append_of_le_length hin]
  · by_cases hlate : s.position ≤ b.oldest
    · have hall : b.unread s = b.retained := by
        unfold unread
        rw [Nat.sub_eq_zero_of_le hlate, List.drop_zero]
      refine ⟨(b.retained ++ [n]).take 1, ?_, ?_⟩
      · unfold unread
        simp only [Nat.sub_eq_zero_of_le (Nat.le_succ_of_le hlate), List.drop_zero]
        rw [Nat.sub_eq_zero_of_le hlate, List.drop_zero, List.take_append_drop]
      · have hone : ((b.retained ++ [n]).take 1).length = 1 := by simp
        simp only [hone]
        omega
    · have hin : s.position - b.oldest ≤ b.retained.length := by omega
      have hstep : 1 + (s.position - (b.oldest + 1)) = s.position - b.oldest := by omega
      refine ⟨[], ?_, ?_⟩
      · unfold unread
        rw [List.nil_append, List.drop_drop, hstep, List.drop_append_of_le_length hin]
      · simp only [List.length_nil]
        omega

theorem unread_advance {b : Bus κ} {s : Subscription} (hin : b.oldest ≤ s.position) (count : Nat) :
    b.unread { s with position := s.position + count } = (b.unread s).drop count := by
  unfold unread
  rw [List.drop_drop]
  congr 1
  simp only
  omega

theorem receive?_cases [DecidableLT κ] [DecidableEq κ] [LinearKey κ] {b b' : Bus κ} {name : κ}
    {r : Reception} (h : b.receive? name = some (r, b')) : ∃ s s', b.subscriptions.get? name = some s ∧
      b.take s = (r, s') ∧ b' = { b with subscriptions := b.subscriptions.insert name s' } := by
  obtain ⟨s, hs, h⟩ := Option.bind_eq_some_iff.1 h
  obtain ⟨hr, hb⟩ := Prod.mk.inj (Option.some.inj h)
  exact ⟨s, (b.take s).2, hs, Prod.ext hr rfl, hb.symm⟩

theorem ofCapacity?_some {capacity : UInt64} {b : Bus κ} (h : ofCapacity? κ capacity = some b) :
    0 < capacity.toNat ∧ b = { size := roundedUp capacity.toNat } := by
  unfold ofCapacity? at h
  by_cases hbad : capacity = 0 ∨ largestSize < capacity.toNat
  · rw [if_pos hbad] at h
    cases h
  · rw [if_neg hbad] at h
    refine ⟨Nat.pos_of_ne_zero fun hzero => hbad (Or.inl ?_), (Option.some.inj h).symm⟩
    exact UInt64.toNat_inj.1 hzero

variable [DecidableEq κ]

/-- Where a subscriber stands after some deeds: the notices published in them are behind it in
blocks, were overwritten, or are unread. -/
structure Standing (name : κ) (f : NoticeFilter) (size : Nat) (deeds : List (Deed κ)) (b : Bus κ)
    (s : Subscription) (blocks : List Block) (overwritten : List Notice) : Prop where
  sound : b.Sound
  places : b.size = size
  positive : 0 < size
  closed : b.closed = deeds.any Deed.closes
  present : b.subscriptions.get? name = some s
  filter : s.filter = f
  reached : s.position ≤ b.next
  asked : blocks.map Block.asking = askings name 0 false deeds
  explained : Explained size f blocks
  split : publications deeds = covered blocks ++ overwritten ++ b.unread s
  overdue : overwritten.length = b.oldest - s.position

namespace Standing

variable {name : κ} {f : NoticeFilter} {size : Nat} {deeds : List (Deed κ)} {b b' : Bus κ}
  {s : Subscription} {blocks : List Block} {overwritten : List Notice}

theorem length_publications (h : Standing name f size deeds b s blocks overwritten) :
    (publications deeds).length =
      (covered blocks).length + overwritten.length + (b.unread s).length := by
  rw [h.split, List.length_append, List.length_append]

/-- A deed that is not about the subscriber and publishes nothing leaves it where it is. -/
theorem aside (h : Standing name f size deeds b s blocks overwritten) {deed : Deed κ}
    (hsize : b'.size = b.size) (holdest : b'.oldest = b.oldest)
    (hretained : b'.retained = b.retained)
    (hpresent : b'.subscriptions.get? name = b.subscriptions.get? name)
    (hclosed : b'.closed = (b.closed || deed.closes)) (hnotice : deed.notice? = none)
    (hasking : ∀ published isClosed, deed.asking? name published isClosed = none) :
    Standing name f size (deeds ++ [deed]) b' s blocks overwritten where
  sound := ⟨by rw [hretained, hsize]; exact h.sound.retained,
    fun hlost => by rw [hretained, hsize]; exact h.sound.full (holdest ▸ hlost)⟩
  places := hsize.trans h.places
  positive := h.positive
  closed := by rw [hclosed, h.closed, List.any_append, List.any_cons, List.any_nil, Bool.or_false]
  present := hpresent.trans h.present
  filter := h.filter
  reached := by
    have hreached : s.position ≤ b.oldest + b.retained.length := h.reached
    unfold next
    rw [holdest, hretained]
    exact hreached
  asked := by rw [h.asked, askings_append, hasking, Option.toList_none, List.append_nil]
  explained := h.explained
  split := by
    rw [publications_append, hnotice, Option.toList_none, List.append_nil, h.split]
    unfold unread
    rw [holdest, hretained]
  overdue := by rw [h.overdue, holdest]

theorem published (h : Standing name f size deeds b s blocks overwritten) {n : Notice}
    (hpub : b.publish? n = some b') :
    ∃ lost, Standing name f size (deeds ++ [.published n]) b' s blocks (overwritten ++ lost) := by
  have hreached : s.position ≤ b.oldest + b.retained.length := h.reached
  obtain ⟨lost, hunread, holdest⟩ := unread_publish h.reached hpub
  have hsame : b'.size = b.size ∧ b'.closed = b.closed ∧ b'.subscriptions = b.subscriptions ∧
      b'.next = b.next + 1 := by
    rcases publish?_cases hpub with ⟨hroom, rfl⟩ | ⟨hroom, rfl⟩
    · refine ⟨rfl, rfl, rfl, ?_⟩
      simp only [next, List.length_append, List.length_singleton]
      omega
    · refine ⟨rfl, rfl, rfl, ?_⟩
      simp only [next, List.length_drop, List.length_append, List.length_singleton]
      omega
  obtain ⟨hsize, hclosed, hsubscriptions, hnext⟩ := hsame
  refine ⟨lost, ?_⟩
  exact
    { sound := h.sound.publish hpub
      places := hsize.trans h.places
      positive := h.positive
      closed := by
        rw [hclosed, h.closed, List.any_append]
        simp [Deed.closes]
      present := by rw [hsubscriptions, h.present]
      filter := h.filter
      reached := by
        have hle := h.reached
        omega
      asked := by
        rw [h.asked, askings_append]
        simp [Deed.asking?]
      explained := h.explained
      split := by
        have hlast : (Deed.published n : Deed κ).notice?.toList = [n] := rfl
        rw [publications_append, h.split, hlast, List.append_assoc, hunread]
        simp only [List.append_assoc]
      overdue := by
        rw [List.length_append, h.overdue, holdest] }

/-- Nothing is overdue for a subscriber that keeps up. -/
theorem overwritten_eq_nil (h : Standing name f size deeds b s blocks overwritten)
    (hin : b.oldest ≤ s.position) : overwritten = [] :=
  List.eq_nil_of_length_eq_zero (h.overdue.trans (Nat.sub_eq_zero_of_le hin))

/-- What is unread is still retained. -/
theorem length_unread_le (h : Standing name f size deeds b s blocks overwritten) :
    (b.unread s).length ≤ size := by
  have hretained := h.sound.retained
  have hsize := h.places
  have hunread : (b.unread s).length = b.retained.length - (s.position - b.oldest) :=
    List.length_drop
  omega

theorem position_add_le_next (h : Standing name f size deeds b s blocks overwritten)
    (hin : b.oldest ≤ s.position) {count : Nat} (hcount : count ≤ (b.unread s).length) :
    s.position + count ≤ b.next := by
  have hreached : s.position ≤ b.oldest + b.retained.length := h.reached
  have hunread : (b.unread s).length = b.retained.length - (s.position - b.oldest) :=
    List.length_drop
  unfold next
  omega

variable [DecidableLT κ] [LinearKey κ]

/-- Whatever was taken, nothing is overdue afterwards if the answer's block fits. -/
theorem answeredWith (h : Standing name f size deeds b s blocks overwritten) {r : Reception}
    {s' : Subscription} (notices : List Notice)
    (hnotices : overwritten ++ b.unread s = notices ++ b.unread s') (hfilter : s'.filter = s.filter)
    (hin : b.oldest ≤ s'.position) (hnext : s'.position ≤ b.next)
    (hfits : Block.Fits size f (covered blocks).length
      ⟨⟨(publications deeds).length, deeds.any Deed.closes, r⟩, notices⟩) :
    Standing name f size (deeds ++ [.asked name r])
      { b with subscriptions := b.subscriptions.insert name s' } s'
      (blocks ++ [⟨⟨(publications deeds).length, deeds.any Deed.closes, r⟩, notices⟩]) [] where
  sound := ⟨h.sound.retained, h.sound.full⟩
  places := h.places
  positive := h.positive
  closed := by
    rw [List.any_append]
    simp [Deed.closes, h.closed]
  present := by rw [OrderedMap.get?_insert, if_pos rfl]
  filter := hfilter.trans h.filter
  reached := hnext
  asked := by
    rw [List.map_append, h.asked, askings_append]
    simp [Deed.asking?]
  explained := h.explained.snoc hfits
  split := by
    have hnone : (Deed.asked name r).notice?.toList = [] := rfl
    rw [publications_append, h.split, hnone, List.append_nil, covered_append, List.append_assoc,
      hnotices, List.append_nil, List.append_assoc]
    rfl
  overdue := (Nat.sub_eq_zero_of_le hin).symm

/-- A subscriber that has fallen behind is told how many notices were overwritten. -/
theorem lagged (h : Standing name f size deeds b s blocks overwritten)
    (hlate : s.position < b.oldest) : let s' := { s with position := b.oldest }
    Standing name f size (deeds ++ [.asked name (.lagged (b.oldest - s.position))])
      { b with subscriptions := b.subscriptions.insert name s' } s'
      (blocks ++ [⟨⟨(publications deeds).length, deeds.any Deed.closes,
        .lagged (b.oldest - s.position)⟩, overwritten⟩]) [] ∧ b.unread s' = b.retained := by
  have hlength := h.length_publications
  have hfull : b.retained.length = b.size := h.sound.full (by omega)
  have hall : b.unread s = b.retained := by
    unfold unread
    rw [Nat.sub_eq_zero_of_le (Nat.le_of_lt hlate), List.drop_zero]
  have hall' : b.unread { s with position := b.oldest } = b.retained := by
    unfold unread
    rw [Nat.sub_self, List.drop_zero]
  refine ⟨h.answeredWith overwritten (by rw [hall, hall']) rfl (Nat.le_refl _)
    (Nat.le_add_right _ _) ⟨Nat.sub_pos_of_lt hlate, h.overdue, ?_⟩, hall'⟩
  have hsize := h.places
  have hoverdue := h.overdue
  rw [hall] at hlength
  simp only
  omega

/-- A subscriber that keeps up is answered the first unread notice that it accepts. -/
theorem hit (h : Standing name f size deeds b s blocks overwritten) (hin : b.oldest ≤ s.position)
    {skipped rest : List Notice} {n : Notice} (hrest : b.unread s = skipped ++ n :: rest)
    (hskipped : ∀ m ∈ skipped, s.filter.accepts m = false) (hn : s.filter.accepts n = true) :
    let s' := { s with position := s.position + skipped.length + 1 }
    Standing name f size (deeds ++ [.asked name (.notice n)])
      { b with subscriptions := b.subscriptions.insert name s' } s'
      (blocks ++ [⟨⟨(publications deeds).length, deeds.any Deed.closes, .notice n⟩,
        skipped ++ [n]⟩]) [] := by
  have hnone := h.overwritten_eq_nil hin
  have hlength := h.length_publications
  have hunread := h.length_unread_le
  have hcount : (b.unread s).length = skipped.length + 1 + rest.length := by
    rw [hrest, List.length_append, List.length_cons]
    omega
  have hafter : b.unread { s with position := s.position + skipped.length + 1 } = rest := by
    have hskip : skipped ++ n :: rest = (skipped ++ [n]) ++ rest := by simp
    have htaken : (skipped ++ [n]).length = skipped.length + 1 := by simp
    rw [Nat.add_assoc, unread_advance hin, hrest, hskip, ← htaken, List.drop_left]
  refine h.answeredWith (skipped ++ [n]) ?_ rfl ?_ ?_
    ⟨?_, h.filter ▸ hn, skipped, rfl, h.filter ▸ hskipped⟩
  · rw [hnone, hafter, hrest]
    simp
  · simp only
    omega
  · have htaken : skipped.length + 1 ≤ (b.unread s).length := by omega
    exact h.position_add_le_next hin htaken
  · rw [hnone, List.length_nil] at hlength
    simp only
    omega

/-- A subscriber that keeps up goes over what it does not accept. -/
theorem missed (h : Standing name f size deeds b s blocks overwritten) (hin : b.oldest ≤ s.position)
    (hskipped : ∀ m ∈ b.unread s, s.filter.accepts m = false) :
    let s' := { s with position := s.position + (b.unread s).length }
    let r : Reception := if b.closed then .closed else .nothing
    Standing name f size (deeds ++ [.asked name r])
      { b with subscriptions := b.subscriptions.insert name s' } s'
      (blocks ++ [⟨⟨(publications deeds).length, deeds.any Deed.closes, r⟩, b.unread s⟩]) [] := by
  have hnone := h.overwritten_eq_nil hin
  have hlength := h.length_publications
  have hunread := h.length_unread_le
  have hafter : b.unread { s with position := s.position + (b.unread s).length } = [] := by
    rw [unread_advance hin, List.drop_length]
  rw [hnone, List.length_nil] at hlength
  have hbehind : (publications deeds).length ≤ (covered blocks).length + size := by omega
  have hend : (covered blocks).length + (b.unread s).length = (publications deeds).length := by omega
  refine h.answeredWith (b.unread s) ?_ rfl (Nat.le_add_right_of_le hin)
    (h.position_add_le_next hin (Nat.le_refl _)) ?_
  · rw [hnone, hafter, List.nil_append, List.append_nil]
  · have hclosed := h.closed
    cases hc : b.closed with
    | false =>
      rw [hc] at hclosed
      exact ⟨hclosed.symm, hbehind, hend, h.filter ▸ hskipped⟩
    | true =>
      rw [hc] at hclosed
      exact ⟨hclosed.symm, hbehind, hend, h.filter ▸ hskipped⟩

/-- What a subscriber is answered makes a block, after which nothing is overdue. -/
theorem answered (h : Standing name f size deeds b s blocks overwritten) {r : Reception}
    {s' : Subscription} (htake : b.take s = (r, s')) :
    ∃ notices, Standing name f size (deeds ++ [.asked name r])
      { b with subscriptions := b.subscriptions.insert name s' } s'
      (blocks ++ [⟨⟨(publications deeds).length, deeds.any Deed.closes, r⟩, notices⟩]) [] ∧
      (r.isLag → b.unread s' = b.retained) := by
  rcases take_cases htake with ⟨hlate, rfl, rfl⟩ |
      ⟨hin, skipped, n, rest, hrest, hskipped, hn, rfl, rfl⟩ | ⟨hin, hskipped, rfl, rfl⟩
  · obtain ⟨hstands, hall⟩ := h.lagged hlate
    exact ⟨overwritten, hstands, fun _ => hall⟩
  · exact ⟨skipped ++ [n], h.hit hin hrest hskipped hn, nofun⟩
  · refine ⟨b.unread s, h.missed hin hskipped, fun hlag => ?_⟩
    cases hc : b.closed <;> simp [hc, Reception.isLag] at hlag

/-- Every step of a bus leaves a subscriber standing that did not end its subscription. -/
theorem step (h : Standing name f size deeds b s blocks overwritten) {deed : Deed κ}
    (hstep : Step b deed b') (hends : deed.ends name = false) :
    ∃ s' blocks' overwritten', Standing name f size (deeds ++ [deed]) b' s' blocks' overwritten' ∧
      (∀ r, deed = .asked name r → overwritten' = [] ∧ (r.isLag → b'.unread s' = b'.retained)) := by
  cases hstep with
  | published hopen hpub =>
    obtain ⟨lost, h'⟩ := h.published hpub
    exact ⟨s, blocks, overwritten ++ lost, h', fun r hr => by cases hr⟩
  | refused hopen hpub =>
    refine ⟨s, blocks, overwritten, h.aside rfl rfl rfl rfl ?_ rfl fun _ _ => rfl,
      fun r hr => by cases hr⟩
    simp [Deed.closes]
  | subscribed other filter hopen =>
    have hother : other ≠ name := by simpa [Deed.ends] using hends
    refine ⟨s, blocks, overwritten, h.aside rfl rfl rfl ?_ ?_ rfl fun _ _ => rfl,
      fun r hr => by cases hr⟩
    · unfold subscribe
      rw [OrderedMap.get?_insert, if_neg hother]
    · simp [subscribe, Deed.closes]
  | unsubscribed other =>
    have hother : other ≠ name := by simpa [Deed.ends] using hends
    refine ⟨s, blocks, overwritten, h.aside rfl rfl rfl ?_ ?_ rfl fun _ _ => rfl,
      fun r hr => by cases hr⟩
    · unfold unsubscribe
      rw [OrderedMap.get?_erase, if_neg hother]
    · simp [unsubscribe, Deed.closes]
  | @asked other r _ hask =>
    obtain ⟨t, t', ht, htake, rfl⟩ := receive?_cases hask
    by_cases hother : other = name
    · subst hother
      obtain rfl : s = t := Option.some.inj (h.present.symm.trans ht)
      obtain ⟨notices, h', hlag⟩ := h.answered htake
      refine ⟨t', _, [], h', fun r' hr' => ⟨rfl, ?_⟩⟩
      obtain rfl := (Deed.asked.inj hr').2
      exact hlag
    · refine ⟨s, blocks, overwritten, h.aside rfl rfl rfl ?_ ?_ rfl fun _ _ => if_neg hother,
        fun r' hr' => absurd (Deed.asked.inj hr').1 hother⟩
      · rw [OrderedMap.get?_insert, if_neg hother]
      · simp [Deed.closes]
  | closed =>
    refine ⟨s, blocks, overwritten, h.aside rfl rfl rfl rfl ?_ rfl fun _ _ => rfl,
      fun r hr => by cases hr⟩
    simp [close, Deed.closes]

/-- A subscriber stands somewhere from when it subscribed until it gives up its subscription. -/
theorem of_run {b₀ : Bus κ} (hsound : b₀.Sound) (hpositive : 0 < b₀.size) (hopen : b₀.closed = false)
    {deeds : List (Deed κ)} {b : Bus κ} (h : Run (b₀.subscribe name f) deeds b)
    (hends : ∀ deed ∈ deeds, deed.ends name = false) :
    ∃ s blocks overwritten, Standing name f b₀.size deeds b s blocks overwritten ∧
      (∀ earlier r, deeds = earlier ++ [.asked name r] →
        overwritten = [] ∧ (r.isLag → b.unread s = b.retained)) := by
  induction h with
  | nil =>
    have hnone : (b₀.subscribe name f).unread ⟨f, b₀.next⟩ = [] := by
      refine List.drop_eq_nil_of_le ?_
      simp only [subscribe, next]
      omega
    refine ⟨⟨f, b₀.next⟩, [], [], ?_, fun earlier r hr => by simp at hr⟩
    exact
      { sound := ⟨hsound.retained, hsound.full⟩
        places := rfl
        positive := hpositive
        closed := hopen
        present := by
          unfold subscribe
          rw [OrderedMap.get?_insert, if_pos rfl]
        filter := rfl
        reached := Nat.le_refl _
        asked := rfl
        explained := .nil
        split := by rw [hnone]; rfl
        overdue := (Nat.sub_eq_zero_of_le (Nat.le_add_right _ _)).symm }
  | snoc hrun hstep ih =>
    obtain ⟨s, blocks, overwritten, h, -⟩ := ih fun d hd => hends d (List.mem_append_left _ hd)
    obtain ⟨s', blocks', overwritten', h', hlast⟩ :=
      h.step hstep (hends _ (List.mem_append_right _ List.mem_cons_self))
    refine ⟨s', blocks', overwritten', h', fun earlier r hr => hlast r ?_⟩
    exact List.head_eq_of_cons_eq (List.append_inj' hr rfl).2

end Standing

variable [DecidableLT κ] [LinearKey κ]

theorem Step.sound {b b' : Bus κ} {deed : Deed κ} (h : Step b deed b') (hsound : b.Sound) :
    b'.Sound ∧ b'.size = b.size := by
  cases h with
  | published hopen hpub =>
    refine ⟨hsound.publish hpub, ?_⟩
    rcases publish?_cases hpub with ⟨-, rfl⟩ | ⟨-, rfl⟩ <;> rfl
  | refused => exact ⟨hsound, rfl⟩
  | subscribed | unsubscribed | closed => exact ⟨⟨hsound.retained, hsound.full⟩, rfl⟩
  | asked hask =>
    obtain ⟨s, s', -, -, rfl⟩ := receive?_cases hask
    exact ⟨⟨hsound.retained, hsound.full⟩, rfl⟩

theorem Run.sound {b b' : Bus κ} {deeds : List (Deed κ)} (h : Run b deeds b') (hsound : b.Sound) :
    b'.Sound ∧ b'.size = b.size := by
  induction h with
  | nil => exact ⟨hsound, rfl⟩
  | snoc hrun hstep ih =>
    obtain ⟨hsound', hsize⟩ := hstep.sound ih.1
    exact ⟨hsound', hsize.trans ih.2⟩

/-- A bus loses nothing silently. -/
theorem loses_nothing_silently {capacity : UInt64} {b₀ b₁ b₂ : Bus κ} {name : κ} {f : NoticeFilter}
    {before after : List (Deed κ)} (hbus : ofCapacity? κ capacity = some b₀)
    (hbefore : Run b₀ before b₁) (hopen : b₁.closed = false)
    (hafter : Run (b₁.subscribe name f) after b₂) (hkept : ∀ deed ∈ after, deed.ends name = false) :
    capacity.toNat ≤ b₀.size ∧ b₂.retained.length ≤ b₀.size ∧
    ∃ s blocks overwritten, b₂.subscriptions.get? name = some s ∧
      -- What was answered makes blocks, and each answer is right for what it stands for.
      blocks.map Block.asking = askings name 0 false after ∧ Explained b₀.size f blocks ∧
      publications after = covered blocks ++ overwritten ++ b₂.unread s ∧
      overwritten.length = (publications after).length - (covered blocks).length - b₀.size ∧
      -- What was returned is what was taken and accepted, and what was lost was reported.
      (askings name 0 false after).filterMap (fun asking => asking.reception.notice?) =
        (taken blocks).filter f.accepts ∧
      (taken blocks).length + ((askings name 0 false after).map fun asking => asking.reception.lost).sum
        + overwritten.length + (b₂.unread s).length = (publications after).length ∧
      -- Nobody who is within the capacity is told of a loss.
      (∀ earlier block later, blocks = earlier ++ block :: later →
        block.asking.published - (covered earlier).length ≤ capacity.toNat →
        block.asking.reception.isLag = false) ∧
      -- What was overwritten is reported by the next answer, and after it come all that are retained.
      (∃ r b₃, b₂.receive? name = some (r, b₃) ∧
        (overwritten ≠ [] → r = .lagged overwritten.length)) ∧
      (∀ earlier r, after = earlier ++ [.asked name r] →
        overwritten = [] ∧ (r.isLag → b₂.unread s = b₂.retained)) := by
  obtain ⟨hpos, rfl⟩ := ofCapacity?_some hbus
  have hcapacity : capacity.toNat ≤ roundedUp capacity.toNat := le_roundedUp _
  obtain ⟨hsound, hsize⟩ := hbefore.sound ⟨Nat.zero_le _, fun h => absurd h (Nat.lt_irrefl 0)⟩
  have hpositive : 0 < b₁.size := by
    rw [hsize]
    exact Nat.lt_of_lt_of_le hpos hcapacity
  obtain ⟨s, blocks, overwritten, h, hlast⟩ := Standing.of_run hsound hpositive hopen hafter hkept
  rw [hsize] at h
  have hretained := h.sound.retained
  have hlength := h.length_publications
  have hunread : (b₂.unread s).length = b₂.retained.length - (s.position - b₂.oldest) :=
    List.length_drop
  have hreached : s.position ≤ b₂.oldest + b₂.retained.length := h.reached
  have hplaces := h.places
  have hoverdue := h.overdue
  have hnumber := h.explained.length_covered
  refine ⟨hcapacity, hplaces ▸ hretained, s, blocks, overwritten, h.present, h.asked, h.explained,
    h.split, ?_, ?_, ?_, ?_, ?_, hlast⟩
  · by_cases hlate : b₂.oldest ≤ s.position
    · omega
    · have hfull : b₂.retained.length = b₂.size := h.sound.full (by omega)
      simp only at hplaces ⊢
      omega
  · rw [← h.asked, List.filterMap_map, ← h.explained.returned]
    rfl
  · rw [← h.asked, List.map_map]
    simp only [Function.comp_def]
    omega
  · intro earlier block later hsplit hnear
    have hfits := h.explained.fits hsplit
    cases hr : block.asking.reception with
    | lagged count =>
      simp only [Block.Fits, hr] at hfits
      omega
    | notice | nothing | closed => rfl
  · cases htake : b₂.take s with
    | mk r s' =>
      refine ⟨r, { b₂ with subscriptions := b₂.subscriptions.insert name s' }, ?_, fun hlost => ?_⟩
      · unfold receive?
        rw [h.present, Option.bind_eq_bind, Option.bind_some, htake]
        rfl
      · have hlate : s.position < b₂.oldest := by
          have hsome := List.length_pos_iff.2 hlost
          omega
        rcases take_cases htake with ⟨-, hr, -⟩ | ⟨hin, -⟩ | ⟨hin, -⟩
        · rw [hr, hoverdue]
        · omega
        · omega

end Runs

/-- Three notices come to a bus of two places before their subscriber asks. -/
def crowd : List (Deed Nat) :=
  [.published (.serverDown "one"), .published (.serverDown "two"), .published (.serverDown "three"),
    .asked 0 (.lagged 1), .asked 0 (.notice (.serverDown "two"))]

theorem crowd_told_of_loss : ∃ b : Bus Nat, ∃ s blocks,
    Run (({ size := 2 } : Bus Nat).subscribe 0 .all) crowd b ∧ b.subscriptions.get? 0 = some s ∧
      publications crowd = covered blocks ++ b.unread s ∧
      taken blocks = [.serverDown "two"] ∧ (taken blocks).length + 1 + (b.unread s).length = 3 := by
  have hrun : Run (({ size := 2 } : Bus Nat).subscribe 0 .all) crowd
      { size := 2, oldest := 1, retained := [.serverDown "two", .serverDown "three"],
        subscriptions := .ofList [(0, ⟨.all, 2⟩)] } :=
    ((((Run.nil.snoc (.published rfl rfl)).snoc (.published rfl rfl)).snoc (.published rfl rfl)).snoc
      (.asked rfl)).snoc (.asked rfl)
  have hbus : ofCapacity? Nat 2 = some { size := 2 } := rfl
  obtain ⟨-, -, s, blocks, overwritten, hs, -, -, hsplit, -, hreturned, htotal, -, -, hlast⟩ :=
    loses_nothing_silently hbus .nil rfl hrun (by decide)
  obtain ⟨rfl, -⟩ := hlast (crowd.take 4) _ rfl
  refine ⟨_, s, blocks, hrun, hs, by simpa using hsplit, ?_, ?_⟩
  · have hall : (taken blocks).filter NoticeFilter.all.accepts = taken blocks :=
      List.filter_eq_self.2 fun _ _ => rfl
    rw [← hall, ← hreturned]
    rfl
  · exact htotal

end Bus

end HostSteward
