import Mathlib

/-!
# Hash chains

Each entry of a chain carries the hash of its predecessor and its own hash, which is computed from
what the entry says and from the hash before it. When that computation determines both, the head of
a chain determines every entry (`agree_of_head`), and changed entries under unchanged hashes break
the chain at the first of them (`firstBreak_of_changed`).
-/

set_option autoImplicit false

namespace AgentPay.Library

universe u v

/-- How entries are linked: the hash of an entry behind a hash, and the two hashes it carries. -/
structure Links (Entry : Type u) (Hash : Type v) where
  link : Entry → Hash → Hash
  prev : Entry → Hash
  hash : Entry → Hash

namespace Links

variable {Entry : Type u} {Hash : Type v} (L : Links Entry Hash)

/-- The entries, oldest first, continue a chain with a given head. -/
def Chained : Hash → List Entry → Prop
  | _, [] => True
  | h, e :: es => L.prev e = h ∧ L.hash e = L.link e h ∧ Chained (L.hash e) es

/-- The head of a chain that continues a given head. -/
def head : Hash → List Entry → Hash
  | h, [] => h
  | _, e :: es => head (L.hash e) es

/-- The first entry that does not continue the chain, with the head it should continue. -/
def firstBreak [DecidableEq Hash] : Hash → List Entry → Option (Entry × Hash)
  | _, [] => none
  | h, e :: es =>
      if L.prev e ≠ h ∨ L.hash e ≠ L.link e h then some (e, h) else firstBreak (L.hash e) es

variable {L} {h : Hash} {es fs : List Entry}

theorem firstBreak_cons_of_linked [DecidableEq Hash] {e : Entry} (hprev : L.prev e = h)
    (hhash : L.hash e = L.link e h) : L.firstBreak h (e :: es) = L.firstBreak (L.hash e) es := by
  rw [firstBreak, if_neg]
  rintro (hne | hne)
  · exact hne hprev
  · exact hne hhash

/-- Nothing breaks a chain. -/
theorem firstBreak_eq_none [DecidableEq Hash] : L.firstBreak h es = none ↔ L.Chained h es := by
  induction es generalizing h with
  | nil => exact ⟨fun _ => trivial, fun _ => rfl⟩
  | cons e es ih =>
      rw [Chained]
      by_cases hlinked : L.prev e = h ∧ L.hash e = L.link e h
      · rw [firstBreak_cons_of_linked hlinked.1 hlinked.2, ih]
        exact ⟨fun hes => ⟨hlinked.1, hlinked.2, hes⟩, fun hes => hes.2.2⟩
      · rw [firstBreak, if_pos (by rwa [not_and_or] at hlinked)]
        constructor
        · intro hnone
          cases hnone
        · intro hes
          exact absurd ⟨hes.1, hes.2.1⟩ hlinked

theorem chained_append : L.Chained h (es ++ fs) ↔ L.Chained h es ∧ L.Chained (L.head h es) fs := by
  induction es generalizing h with
  | nil => exact ⟨fun hfs => ⟨trivial, hfs⟩, fun hfs => hfs.2⟩
  | cons e es ih =>
      rw [List.cons_append, Chained, Chained, head, ih]
      simp only [and_assoc]

theorem head_append : L.head h (es ++ fs) = L.head (L.head h es) fs := by
  induction es generalizing h with
  | nil => rfl
  | cons e es ih => rw [List.cons_append, head, head, ih]

/-- A part of a chain from its start on is a chain. -/
theorem Chained.take (hes : L.Chained h es) (n : ℕ) : L.Chained h (es.take n) := by
  rw [← List.take_append_drop n es, chained_append] at hes
  exact hes.1

/-- The hashes before the entries are the start and the hashes of all but the last entry. -/
theorem Chained.map_prev (hes : L.Chained h es) : es.map L.prev = (h :: es.map L.hash).dropLast := by
  induction es generalizing h with
  | nil => rfl
  | cons e es ih =>
      obtain ⟨hprev, -, hrest⟩ := hes
      rw [List.map_cons, List.map_cons, List.dropLast_cons_cons, ← ih hrest, hprev]

/-- Entries with different hashes have different predecessors. -/
theorem Chained.nodup_prev (hes : L.Chained h es) (hne : (h :: es.map L.hash).Nodup) :
    (es.map L.prev).Nodup := by
  rw [hes.map_prev]
  exact hne.sublist (List.dropLast_sublist _)

/-- The head is the start or the hash of an entry. -/
theorem head_mem (L : Links Entry Hash) (h : Hash) (es : List Entry) :
    L.head h es ∈ h :: es.map L.hash := by
  induction es generalizing h with
  | nil => exact List.mem_cons_self
  | cons e es ih => exact List.mem_cons_of_mem _ (ih (L.hash e))

/-- Hashes that determine the hash before them are different all along a chain whose start is none
of them: two equal ones would have equal predecessors, down to the start. -/
theorem Chained.nodup_hash (hlink : ∀ e f h k, L.link e h = L.link f k → h = k)
    (hstart : ∀ e k, L.link e k ≠ h) (hes : L.Chained h es) : (h :: es.map L.hash).Nodup := by
  induction es using List.reverseRecOn with
  | nil => exact List.nodup_singleton h
  | append_singleton es e ih =>
      obtain ⟨hes, -, hhash, -⟩ := chained_append.1 hes
      have hnodup := ih hes
      rw [List.map_append, List.map_singleton, ← List.cons_append]
      refine List.nodup_append.2 ⟨hnodup, List.nodup_singleton _, ?_⟩
      rintro k hk _ hmem rfl
      rw [List.mem_singleton.1 hmem] at hk
      rcases List.mem_cons.1 hk with hk | hk
      · exact hstart e _ (hhash.symm.trans hk)
      · obtain ⟨f, hf, hfe⟩ := List.mem_map.1 hk
        obtain ⟨pre, post, rfl⟩ := List.append_of_mem hf
        obtain ⟨-, -, hfhash, -⟩ := chained_append.1 hes
        -- the heads before the two entries are equal, but stand at different places
        have hheads := hlink f e _ _ (by rw [← hfhash, hfe, hhash])
        rw [head_append, head] at hheads
        rw [List.map_append, List.map_cons, ← List.cons_append] at hnodup
        exact (List.nodup_append.1 hnodup).2.2 _ (head_mem L h pre) _
          (head_mem L (L.hash f) post) hheads

/-- The head of a nonempty chain is a hash of the linking. -/
theorem Chained.exists_link (hes : L.Chained h es) (hne : es ≠ []) :
    ∃ e k, L.head h es = L.link e k := by
  induction es using List.reverseRecOn with
  | nil => exact absurd rfl hne
  | append_singleton es e _ =>
      obtain ⟨-, -, hhash, -⟩ := chained_append.1 hes
      exact ⟨e, L.head h es, by rw [head_append, head, head, hhash]⟩

/-- **The head of a chain determines its length**, when hashes determine the hash before them and
the start is none of them. -/
theorem length_eq_of_head (hlink : ∀ e f h k, L.link e h = L.link f k → h = k)
    (hstart : ∀ e k, L.link e k ≠ h) (hes : L.Chained h es) (hfs : L.Chained h fs)
    (hhead : L.head h es = L.head h fs) : es.length = fs.length := by
  induction es using List.reverseRecOn generalizing fs with
  | nil =>
      by_contra hne
      obtain ⟨f, k, hf⟩ := hfs.exists_link fun hnil => hne (by rw [hnil])
      exact hstart f k (hf.symm.trans hhead.symm)
  | append_singleton es e ih =>
      obtain ⟨hes', -, hhash, -⟩ := chained_append.1 hes
      rcases List.eq_nil_or_concat fs with rfl | ⟨fs, f, rfl⟩
      · obtain ⟨e', k, he⟩ := hes.exists_link (by simp)
        exact absurd (he.symm.trans hhead) (hstart e' k)
      · rw [List.concat_eq_append] at hfs hhead ⊢
        obtain ⟨hfs', -, hhash', -⟩ := chained_append.1 hfs
        rw [head_append, head_append] at hhead
        have hbefore := hlink e f _ _ (by rw [← hhash, ← hhash']; exact hhead)
        rw [List.length_append, List.length_append, ih hes' hfs' hbefore]
        rfl

/-- The entries say the same under the same hashes. -/
def Agree (L : Links Entry Hash) (same : Entry → Entry → Prop) (e f : Entry) : Prop :=
  same e f ∧ L.prev e = L.prev f ∧ L.hash e = L.hash f

variable {same : Entry → Entry → Prop}

/-- Entries that say the same are a chain together. -/
theorem Chained.congr (hlink : ∀ e f h, same e f → L.link e h = L.link f h)
    (hagree : List.Forall₂ (L.Agree same) es fs) (hes : L.Chained h es) : L.Chained h fs := by
  induction hagree generalizing h with
  | nil => trivial
  | cons hef _ ih =>
      obtain ⟨hsame, hprev, hhash⟩ := hef
      obtain ⟨he, hehash, hrest⟩ := hes
      refine ⟨hprev ▸ he, ?_, hhash ▸ ih hrest⟩
      rw [← hhash, hehash, hlink _ _ _ hsame]

/-- **The head of a chain of a given length determines what every entry says.** -/
theorem agree_of_head
    (hlink : ∀ e f h k, L.link e h = L.link f k → same e f ∧ h = k) {k : Hash}
    (hlength : es.length = fs.length) (hes : L.Chained h es) (hfs : L.Chained k fs)
    (hhead : L.head h es = L.head k fs) : h = k ∧ List.Forall₂ (L.Agree same) es fs := by
  induction es generalizing h k fs with
  | nil =>
      cases fs with
      | nil => exact ⟨hhead, .nil⟩
      | cons f fs => cases hlength
  | cons e es ih =>
      cases fs with
      | nil => cases hlength
      | cons f fs =>
          obtain ⟨hprev, hhash, hes⟩ := hes
          obtain ⟨hprev', hhash', hfs⟩ := hfs
          -- the tails agree from the heads on, so the two entries have one hash
          obtain ⟨heq, hrest⟩ := ih (Nat.succ.inj hlength) hes hfs hhead
          obtain ⟨hsame, hhk⟩ := hlink e f h k (by rw [← hhash, ← hhash', heq])
          exact ⟨hhk, .cons ⟨hsame, by rw [hprev, hprev', hhk], heq⟩ hrest⟩

/-- **Changed entries under unchanged hashes break the chain at the first of them.** -/
theorem firstBreak_of_changed [DecidableEq Hash]
    (hlink : ∀ e f h, L.link e h = L.link f h ↔ same e f) {pre pre' post post' : List Entry}
    {r s : Entry} (hes : L.Chained h (pre ++ r :: post))
    (hpre : List.Forall₂ (L.Agree same) pre pre') (hhash : L.hash r = L.hash s)
    (hchanged : ¬ same r s) :
    L.firstBreak h (pre' ++ s :: post') = some (s, L.head h pre) := by
  induction hpre generalizing h with
  | nil =>
      obtain ⟨hr, hrhash, -⟩ := hes
      rw [List.nil_append, firstBreak, if_pos, head]
      right
      rw [← hhash, hrhash]
      exact fun heq => hchanged ((hlink r s h).1 heq)
  | cons hef _ ih =>
      obtain ⟨hsame, hprev', hhash'⟩ := hef
      obtain ⟨he, hehash, hrest⟩ := hes
      rw [List.cons_append, firstBreak_cons_of_linked (hprev'.symm.trans he), head, ← hhash',
        ih hrest]
      rw [← hhash', hehash]
      exact (hlink _ _ h).2 hsame

end Links

end AgentPay.Library
