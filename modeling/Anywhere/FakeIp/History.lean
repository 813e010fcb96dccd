import Anywhere.FakeIp.Pool
import Anywhere.Lib.Recency

/-!
# Anywhere — the fake addresses over a history

The slots of the pool, in the order of the list, are the domains touched most
recently. So a domain keeps its offset as long as fewer than `poolSize` others
were touched since it was, and both addresses printed for the offset lead back
to it.

* `touches` — the domains a sequence of operations touches.
* `fake_ip_end_to_end` — the round trip, the eviction and the other addresses.
-/

namespace Anywhere.FakeIp

open Lib List

-- ----
-- Histories

/-- The domain an operation touches: the one `allocate` is called with, or the
one `lookup` returns. -/
def touched (s : FakeIpPool) : Op → List Text
  | .allocate domain => [domain]
  | .lookup ip => ((s.lookup ip).2.map Entry.domain).toList
  | .reset => []

/-- The domains touched by a sequence of operations, in order. -/
def touches : FakeIpPool → List Op → List Text
  | _, [] => []
  | s, op :: ops => touched s op ++ touches (step s op) ops

-- ----
-- The slots are the domains touched most recently

/-- The pool after a history: its slots are the last `poolSize` domains of it. -/
structure Recent (s : FakeIpPool) (t : Slots) (history : List Text) : Prop where
  keeps : Keeps s t
  order : t.order.map Prod.fst = (recency history).take poolSize

variable {d ip : Text} {o : Nat}

section Recent

variable {s : FakeIpPool} {t : Slots} {history : List Text}

theorem recent_empty : Recent {} {} [] := ⟨keeps_empty, rfl⟩

/-- A domain that is in two lists of slots has the same offset in both. -/
def SameOffsets (t t' : Slots) : Prop :=
  ∀ d o o', (d, o) ∈ t.order → (d, o') ∈ t'.order → o' = o

theorem touch_domains (h : t.Valid) {p : Text × Nat} (hp : p ∈ t.order) :
    (t.touch p).order.map Prod.fst = Lib.touch p.1 (t.order.map Prod.fst) := by
  obtain ⟨l, r, horder⟩ := append_of_mem hp
  have hdomains := h.domains
  rw [horder, map_append, map_cons, nodup_append] at hdomains
  have hl : p.1 ∉ l.map Prod.fst := fun hin => hdomains.2.2 _ hin _ (by simp) rfl
  have hlp : p ∉ l := fun hin => hl (mem_map.mpr ⟨p, hin, rfl⟩)
  show (p :: t.order.erase p).map Prod.fst = _
  rw [horder, erase_append_right _ hlp, erase_cons_head]
  simp only [map_cons, map_append]
  rw [touch_append hl]

theorem Recent.touch (h : Recent s t history) (hmem : (d, o) ∈ t.order) :
    (t.touch (d, o)).order.map Prod.fst = (recency (history ++ [d])).take poolSize ∧
      SameOffsets t (t.touch (d, o)) := by
  have hd : d ∈ (recency history).take poolSize := by
    rw [← h.order]
    exact mem_map.mpr ⟨_, hmem, rfl⟩
  constructor
  · rw [touch_domains h.keeps.valid hmem, h.order, recency_snoc, take_touch_of_mem hd]
  · intro d' o₁ o₂ h₁ h₂
    have h₂' : (d', o₂) ∈ t.order := (perm_cons_erase hmem).mem_iff.mpr h₂
    exact congrArg Prod.snd
      (inj_on_of_nodup_map h.keeps.valid.domains h₂' h₁ rfl)

/-- A domain that has no slot gets one: the slots never used come first, then the
slot of the domain touched least recently. -/
theorem Recent.insert (h : Recent s t history) (hd : d ∉ t.order.map Prod.fst) :
    (t.allocate d).1.order.map Prod.fst = (recency (history ++ [d])).take poolSize ∧
      SameOffsets t (t.allocate d).1 := by
  have hlen := h.keeps.valid.length
  have horderLen := congrArg List.length h.order
  rw [length_map, length_take] at horderLen
  have hsize : poolSize = 16383 + 1 := rfl
  have htouch : (recency (history ++ [d])).take poolSize = d :: (recency history).take 16383 := by
    rw [recency_snoc, hsize, take_touch_of_notMem]
    rw [← hsize, ← h.order]
    exact hd
  -- a domain other than the new one keeps its slot
  have hsame : ∀ (rest : List (Text × Nat)) (o : Nat), rest ⊆ t.order →
      SameOffsets t ⟨(d, o) :: rest, 0⟩ := by
    intro rest o hsub d' o₁ o₂ h₁ h₂
    rcases mem_cons.mp h₂ with h₂ | h₂
    · have hdd : d' = d := congrArg Prod.fst h₂
      exact absurd (mem_map.mpr ⟨_, h₁, hdd⟩) hd
    · exact congrArg Prod.snd
        (inj_on_of_nodup_map h.keeps.valid.domains (hsub h₂) h₁ rfl)
  by_cases hfull : t.next ≤ poolSize
  · rw [Slots.allocate_fresh hd hfull, map_cons, htouch, h.order,
      take_of_length_le (by omega), take_of_length_le (by omega)]
    exact ⟨rfl, hsame t.order t.next (List.Subset.refl _)⟩
  · obtain ⟨init, p, horder⟩ := h.keeps.valid.exists_last hfull
    rw [Slots.allocate_full hd hfull horder, map_cons, htouch]
    have hinit : init.map Prod.fst = (recency history).take 16383 := by
      have hcut := h.order
      have hilen : init.length = 16383 := by
        have := h.keeps.valid.next_le
        rw [horder, length_append, length_singleton] at hlen
        omega
      rw [horder, map_append] at hcut
      have := congrArg (List.take 16383) hcut
      rwa [take_take, take_append_of_le_length (by simp [hilen]),
        take_of_length_le (by simp [hilen])] at this
    rw [hinit]
    refine ⟨rfl, ?_⟩
    exact hsame init p.2 (by rw [horder]; exact subset_append_left _ _)

/-- What one operation does to the slots and the history. -/
theorem step_recent (h : Recent s t history) {op : Op} (hop : op ≠ .reset) :
    ∃ t', Recent (step s op) t' (history ++ touched s op) ∧ SameOffsets t t' := by
  cases op with
  | reset => exact absurd rfl hop
  | allocate d =>
    by_cases hd : d ∈ t.order.map Prod.fst
    · obtain ⟨⟨d', o⟩, hmem, rfl⟩ := mem_map.mp hd
      have hslot : (t.allocate d').1 = t.touch (d', o) := by
        rw [Slots.allocate, Slots.find_domain h.keeps.valid hmem]
      have htouch := h.touch hmem
      rw [← hslot] at htouch
      exact ⟨_, ⟨(allocate_keeps h.keeps d').1, htouch.1⟩, htouch.2⟩
    · have hinsert := h.insert hd
      exact ⟨_, ⟨(allocate_keeps h.keeps d).1, hinsert.1⟩, hinsert.2⟩
  | lookup ip =>
    have hsame : SameOffsets t t := fun d o o' h₁ h₂ =>
      congrArg Prod.snd (inj_on_of_nodup_map h.keeps.valid.domains h₂ h₁ rfl)
    cases hip : ipToOffset ip with
    | none =>
      refine ⟨t, ?_, hsame⟩
      rw [step, touched, lookup_of_no_offset hip]
      simpa using h
    | some o =>
      obtain ⟨hkeeps, hentry⟩ := lookup_keeps h.keeps hip
      rw [touched, hentry]
      cases hfind : t.order.find? (·.2 == o) with
      | none =>
        have hslot : t.lookup o = (t, none) := by rw [Slots.lookup, hfind]
        rw [hslot] at hkeeps ⊢
        exact ⟨t, ⟨hkeeps, by simpa using h.order⟩, hsame⟩
      | some p =>
        have hmem : p ∈ t.order := List.mem_of_find?_eq_some hfind
        have hslot : t.lookup o = (t.touch p, some p.1) := by rw [Slots.lookup, hfind]
        rw [hslot] at hkeeps ⊢
        have htouch := h.touch (d := p.1) (o := p.2) hmem
        exact ⟨t.touch p, ⟨hkeeps, htouch.1⟩, htouch.2⟩

theorem run_recent (h : Recent s t history) {ops : List Op} (hops : Op.reset ∉ ops) :
    ∃ t', Recent (run step s ops) t' (history ++ touches s ops) := by
  induction ops generalizing s t history with
  | nil => exact ⟨t, by simpa [touches] using h⟩
  | cons op ops ih =>
    rw [mem_cons, not_or] at hops
    obtain ⟨t', h', -⟩ := step_recent h (Ne.symm hops.1)
    obtain ⟨t'', h''⟩ := ih h' hops.2
    rw [touches, ← append_assoc]
    exact ⟨t'', h''⟩

/-- A slot stays while its domain is recent enough at every moment. -/
theorem run_slot_stays (h : Recent s t history) (hmem : (d, o) ∈ t.order)
    {ops : List Op} (hops : Op.reset ∉ ops)
    (hrecent : ∀ seen, seen <+: touches s ops →
      d ∈ (recency (history ++ seen)).take poolSize) :
    ∃ t', Recent (run step s ops) t' (history ++ touches s ops) ∧ (d, o) ∈ t'.order := by
  induction ops generalizing s t history with
  | nil => exact ⟨t, by simpa [touches] using h, hmem⟩
  | cons op ops ih =>
    rw [mem_cons, not_or] at hops
    obtain ⟨t', h', hsame⟩ := step_recent h (Ne.symm hops.1)
    have hd : d ∈ t'.order.map Prod.fst := by
      rw [h'.order]
      exact hrecent _ (prefix_append _ _)
    obtain ⟨⟨d', o'⟩, hmem', rfl⟩ := mem_map.mp hd
    rw [hsame _ _ _ hmem hmem'] at hmem'
    rw [touches, ← append_assoc]
    refine ih h' hmem' hops.2 fun seen hseen => ?_
    rw [append_assoc]
    exact hrecent _ ((prefix_append_right_inj _).mpr hseen)

end Recent

-- ----
-- Addresses

/-- The two texts under which traffic to an offset arrives. -/
def IsText (ip : Text) (o : Nat) : Prop :=
  ip = inetNtop4 (ipv4Bytes o) ∨ ip = inetNtop6 (ipv6Bytes o)

section Addresses

variable {s : FakeIpPool} {t : Slots}

theorem ipToOffset_text (h : IsText ip o) (h1 : 1 ≤ o) (h2 : o ≤ poolSize) :
    ipToOffset ip = some o := by
  rcases h with rfl | rfl
  · exact (ipToOffset_inetNtop4 (length_ipv4Bytes o) o).mpr ⟨rfl, h1, h2⟩
  · exact (ipToOffset_inetNtop6 (length_ipv6Bytes o) o).mpr ⟨rfl, h1, h2⟩

theorem isFakeIp_text (h : IsText ip o) (h1 : 1 ≤ o) (h2 : o ≤ poolSize) :
    isFakeIp ip = true := by
  rcases h with rfl | rfl
  · exact isFakeIp_ipv4 h2
  · exact isFakeIp_ipv6 h1 h2

theorem lookup_slot (h : Keeps s t) (hmem : (d, o) ∈ t.order)
    (hip : IsText ip o) : isFakeIp ip = true ∧ (s.lookup ip).2 = some ⟨d⟩ := by
  have hrange := h.valid.range hmem
  have hfind : t.order.find? (·.2 == o) = some (d, o) := Slots.find_offset h.valid hmem
  refine ⟨isFakeIp_text hip hrange.1 hrange.2, ?_⟩
  rw [(lookup_keeps h (ipToOffset_text hip hrange.1 hrange.2)).2, Slots.lookup, hfind]
  rfl

theorem lookup_free (h : Keeps s t)
    (hip : ∀ o, ipToOffset ip = some o → ∀ d, s.domainToOffset.lookup d ≠ some o) :
    (s.lookup ip).2 = none := by
  obtain ⟨ns, hns⟩ := h.tables
  cases hoff : ipToOffset ip with
  | none => rw [lookup_of_no_offset hoff]
  | some o =>
    have hlook : s.offsetToEntry.lookup o = none := by
      cases hentry : s.offsetToEntry.lookup o with
      | none => rfl
      | some entry =>
        have hmem := (hns.entries entry.domain o).mp hentry
        exact absurd ((hns.domains _ _).mpr hmem) (hip o hoff _)
    rw [FakeIpPool.lookup, hoff]
    dsimp only
    rw [hlook]

end Addresses

-- ----
-- Eviction

/-- `allocate d` gives `d` the offset of `e`, and changes no other domain's. -/
def Replaces (s : FakeIpPool) (d e : Text) : Prop :=
  s.domainToOffset.lookup e = some (s.allocate d).2 ∧
  ∀ d' o', (s.allocate d).1.domainToOffset.lookup d' = some o' ↔
    (d' = d ∧ o' = (s.allocate d).2) ∨ (d' ≠ e ∧ s.domainToOffset.lookup d' = some o')

/-- `e` was touched before every other domain of the pool was last touched. -/
def LeastRecent (s : FakeIpPool) (history : List Text) (e : Text) : Prop :=
  e ∈ history ∧ ∀ d o, s.domainToOffset.lookup d = some o → d ≠ e → d ∈ since e history

theorem allocate_evicts {s : FakeIpPool} {t : Slots} {history : List Text}
    (h : Recent s t history) (hfull : s.count = poolSize)
    (hd : s.domainToOffset.lookup d = none) :
    ∃ e, LeastRecent s history e ∧ Replaces s d e := by
  obtain ⟨ns, hns⟩ := h.keeps.tables
  have hlen : t.order.length = poolSize := by rw [← hfull, hns.count_eq]
  have hnext := h.keeps.valid.length
  have hnofree : ¬ t.next ≤ poolSize := by omega
  obtain ⟨init, ⟨e, o⟩, horder⟩ := h.keeps.valid.exists_last hnofree
  have hmem : ∀ d' o', s.domainToOffset.lookup d' = some o' ↔
      (d', o') ∈ init ∨ (d' = e ∧ o' = o) := by
    intro d' o'
    rw [hns.domains, horder]
    simp
  have hinit : ∀ d' o', (d', o') ∈ init → d' ≠ e := by
    intro d' o' hin he
    have hdomains := h.keeps.valid.domains
    rw [horder, map_append, nodup_append] at hdomains
    exact hdomains.2.2 d' (mem_map.mpr ⟨_, hin, rfl⟩) e (by simp) he
  have halloc : t.allocate d = (⟨(d, o) :: init, t.next⟩, o) :=
    Slots.allocate_full (hns.notMem_of_lookup hd) hnofree horder
  obtain ⟨hkeeps, hoffset⟩ := allocate_keeps h.keeps d
  rw [halloc] at hkeeps hoffset
  obtain ⟨ns', hns'⟩ := hkeeps.tables
  refine ⟨e, ⟨?_, ?_⟩, ?_, ?_⟩
  · have hin : e ∈ (recency history).take poolSize := by
      rw [← h.order, horder]
      simp
    exact mem_recency.1 (mem_of_mem_take hin)
  · intro d' o' hlook hde
    have hin : (d', o') ∈ init := ((hmem d' o').mp hlook).resolve_right fun he => hde he.1
    have hrecency : recency history =
        init.map Prod.fst ++ e :: (recency history).drop poolSize := by
      have hcut := h.order
      rw [horder, map_append, map_singleton] at hcut
      rw [append_cons, hcut, take_append_drop]
    exact mem_since_of_recency hrecency (mem_map.mpr ⟨_, hin, rfl⟩)
  · rw [hoffset, hmem]
    exact .inr ⟨rfl, rfl⟩
  · intro d' o'
    rw [hns'.domains, hoffset, mem_cons, Prod.mk.injEq, hmem]
    constructor
    · rintro (hnew | hin)
      · exact .inl hnew
      · exact .inr ⟨hinit d' o' hin, .inl hin⟩
    · rintro (hnew | ⟨hde, hin | ⟨rfl, -⟩⟩)
      · exact .inl hnew
      · exact .inr hin
      · exact absurd rfl hde

-- ----
-- End to end

/-- An allocated offset leads back to its domain, by both of its addresses, as long
as fewer than `poolSize` other domains were touched since the domain was. -/
theorem allocated_stays {pre post : List Op} (hpre : Op.reset ∉ pre)
    (hpost : Op.reset ∉ post)
    (hfew : ∀ seen, seen <+: touches (step (run step {} pre) (.allocate d)) post →
      (since d seen).toFinset.card < poolSize) (hip : IsText ip ((run step {} pre).allocate d).2) :
    isFakeIp ip = true ∧
      ((run step {} (pre ++ .allocate d :: post)).lookup ip).2 = some ⟨d⟩ := by
  obtain ⟨t, ht⟩ := run_recent recent_empty hpre
  rw [nil_append] at ht
  obtain ⟨t', ht', -⟩ := step_recent ht (show Op.allocate d ≠ .reset by simp)
  obtain ⟨ns, hns⟩ := ht'.keeps.tables
  -- the slot `allocate` returned
  have hslot : (d, ((run step {} pre).allocate d).2) ∈ t'.order := by
    obtain ⟨hkeeps, hoffset⟩ := allocate_keeps ht.keeps d
    obtain ⟨ns₁, hns₁⟩ := hkeeps.tables
    rw [← hns.domains]
    show ((run step {} pre).allocate d).1.domainToOffset.lookup d = _
    rw [hns₁.domains, hoffset, Slots.allocate]
    split
    · rename_i p hfind
      have hpd : p.1 = d := by simpa using List.find?_some hfind
      exact mem_cons.mpr (.inl (by rw [← hpd]))
    · split
      · simp
      · split
        · simp
        · simp
  obtain ⟨t'', ht'', hmem⟩ := run_slot_stays ht' hslot hpost fun seen hseen => by
    show d ∈ (recency ((touches {} pre ++ [d]) ++ seen)).take poolSize
    rw [append_assoc, singleton_append, mem_take_recency_since]
    exact hfew seen hseen
  rw [run_append, run_cons]
  exact lookup_slot ht''.keeps hmem hip

/-- **Fake addresses, end to end**, after every sequence of `allocate` and `lookup`. -/
theorem fake_ip_end_to_end (ops : List Op) (hops : Op.reset ∉ ops) :
    (∀ pre d post, ops = pre ++ .allocate d :: post →
      (∀ seen, seen <+: touches (step (run step {} pre) (.allocate d)) post →
        (since d seen).toFinset.card < poolSize) →
      ∀ ip, IsText ip ((run step {} pre).allocate d).2 →
        isFakeIp ip = true ∧ ((run step {} ops).lookup ip).2 = some ⟨d⟩) ∧
    (∀ d, (run step {} ops).count = poolSize → (run step {} ops).domainToOffset.lookup d = none →
      ∃ e, LeastRecent (run step {} ops) (touches {} ops) e ∧ Replaces (run step {} ops) d e) ∧
    (∀ bytes, bytes.length = 4 →
      (∀ d o, (run step {} ops).domainToOffset.lookup d = some o → bytes ≠ ipv4Bytes o) →
      ((run step {} ops).lookup (inetNtop4 bytes)).2 = none) ∧
    (∀ bytes, bytes.length = 16 →
      (∀ d o, (run step {} ops).domainToOffset.lookup d = some o → bytes ≠ ipv6Bytes o) →
      ((run step {} ops).lookup (inetNtop6 bytes)).2 = none) := by
  obtain ⟨t, ht⟩ := run_recent recent_empty hops
  rw [nil_append] at ht
  refine ⟨?_, ?_, ?_, ?_⟩
  · rintro pre d post rfl hfew ip hip
    rw [mem_append, mem_cons, not_or, not_or] at hops
    exact allocated_stays hops.1 hops.2.2 hfew hip
  · exact fun d hfull hd => allocate_evicts ht hfull hd
  · intro bytes hlen hother
    refine lookup_free ht.keeps fun o ho d hd => hother d o hd ?_
    exact ((ipToOffset_inetNtop4 hlen o).mp ho).1
  · intro bytes hlen hother
    refine lookup_free ht.keeps fun o ho d hd => hother d o hd ?_
    exact ((ipToOffset_inetNtop6 hlen o).mp ho).1

theorem fake_ip_of_two_domains :
    Op.reset ∉ [.allocate ['a'], .allocate ['b']] ∧
      isFakeIp (inetNtop6 (ipv6Bytes 1)) = true ∧
      ((run step {} [.allocate ['a'], .allocate ['b']]).lookup (inetNtop6 (ipv6Bytes 1))).2 =
        some ⟨['a']⟩ := by
  have hops : Op.reset ∉ [.allocate ['a'], .allocate ['b']] := by decide
  refine ⟨hops, (fake_ip_end_to_end _ hops).1 [] ['a'] [.allocate ['b']] rfl ?_ _ (.inr rfl)⟩
  intro seen hseen
  have hlen : seen.length ≤ 1 := hseen.length_le
  have hsince : (since ['a'] seen).length ≤ seen.length := rtakeWhile_suffix _ _ |>.length_le
  have hcard := toFinset_card_le (since ['a'] seen)
  have hsize : poolSize = 16384 := rfl
  omega

end Anywhere.FakeIp
