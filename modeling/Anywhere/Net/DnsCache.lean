import Anywhere.Lib.Machine
import Anywhere.Net.Inet

/-!
# Anywhere — `DnsCache`

The addresses of the hosts of proxies, kept for two minutes. A call of `resolveAll` reads the
cache, and where nothing fresh is there it asks the resolver; until the answer comes other calls
read, evict and store. A step here is what a thread does up to its question, or with the answer.

* `answers_accounted` — whose answer a caller is given, and how old it may be.
* `active_proxy_answered` — nobody waits for the resolver to reach the active proxy, once its
  host was resolved.
-/

namespace Anywhere.Net

open Lib Lib.Text List

-- ----
-- Addresses

/-- `25[0-5]|2[0-4]\d|1\d\d|[1-9]?\d`. -/
def octetForm : Text → Bool
  | [d] => (digitOf d 10).isSome
  | [c, d] => '1' ≤ c && c ≤ '9' && (digitOf d 10).isSome
  | ['1', c, d] => (digitOf c 10).isSome && (digitOf d 10).isSome
  | ['2', '5', d] => '0' ≤ d && d ≤ '5'
  | ['2', c, d] => '0' ≤ c && c ≤ '4' && (digitOf d 10).isSome
  | _ => false

def hexOrDelimiter (c : Char) : Bool :=
  '0' ≤ c && c ≤ '9' || 'A' ≤ c && c ≤ 'F' || 'a' ≤ c && c ≤ 'f' || c == ':' || c == '.'

def scopeCharacter (c : Char) : Bool :=
  '0' ≤ c && c ≤ '9' || 'A' ≤ c && c ≤ 'Z' || 'a' ≤ c && c ≤ 'z' || c == '.' || c == '_' || c == '-'

/-- `ipv6LiteralForm`, with a scope behind `%`. -/
def ipv6LiteralForm (host : Text) : Bool :=
  let parts := host.cut '%'
  parts.1 != [] && parts.1.all hexOrDelimiter &&
    parts.2.all fun scope => scope != [] && scope.all scopeCharacter

structure CacheEntry where
  ips : List Text
  expiry : Int

/-- What the object holds; no key occurs twice in the map. -/
structure DnsCache where
  cache : List (Text × CacheEntry) := []
  activeProxyDomain : Option Text := none

namespace DnsCache

def DEFAULT_TTL_MS : Int := 120000

def EVICTION_THRESHOLD : Nat := 256

/-- `lowercase`, and `InetAddress`. -/
structure Platform where
  lowercase : Text → Text
  inet : Inet

def stripBrackets (host : Text) : Text := Mux.unbracket host

def isIpAddress (platform : Platform) (host : Text) : Bool :=
  let bare := stripBrackets host
  if (bare.splitOn '.').length == 4 && (bare.splitOn '.').all octetForm then true
  else if ¬ bare.contains ':' then false
  else if ¬ ipv6LiteralForm bare then false
  else ((platform.inet.getByName bare).bind inet6).isSome

def entry (c : DnsCache) (key : Text) : Option CacheEntry :=
  (c.cache.find? fun p => p.1 = key).map Prod.snd

def put (c : DnsCache) (key : Text) (e : CacheEntry) : DnsCache :=
  { c with cache := (key, e) :: c.cache.filter fun p => p.1 ≠ key }

def setActiveProxyDomain (platform : Platform) (domain : Option Text) (c : DnsCache) : DnsCache :=
  { c with activeProxyDomain := domain.map fun d => platform.lowercase (stripBrackets d) }

def evictExpired (now : Int) (c : DnsCache) : DnsCache :=
  { c with cache := c.cache.filter fun p => ¬ (p.2.expiry ≤ now ∧ some p.1 ≠ c.activeProxyDomain) }

/-- A call of `resolveAndCache` that is at the resolver: for a call of `resolveAll` that has seen
this entry, or for `refreshAsync`. -/
structure Question where
  key : Text
  bare : Text
  caller : Option (Option CacheEntry)

/-- `resolveAll` up to its question: the map, what is returned, and what is asked. -/
def resolveAll (platform : Platform) (now : Int) (host : Text) (c : DnsCache) :
    DnsCache × Option (List Text) × Option Question :=
  let bare := stripBrackets host
  if isIpAddress platform bare then (c, some [bare], none)
  else
    let key := platform.lowercase bare
    let isActive := c.activeProxyDomain = some key
    let entry := c.entry key
    match entry.filter fun e => now < e.expiry ∨ isActive with
    | some e => (c, some e.ips, if now < e.expiry then none else some ⟨key, bare, none⟩)
    | none =>
      (if c.cache.length > EVICTION_THRESHOLD then c.evictExpired now else c, none,
        some ⟨key, bare, some entry⟩)

/-- `resolveAndCache` with the answer, and what its caller returns. -/
def resolveAndCache (now : Int) (q : Question) (addresses : List Text) (c : DnsCache) :
    DnsCache × Option (List Text) :=
  let ips := addresses.eraseDups
  if ips = [] then (c, q.caller.map fun entry => (entry.map CacheEntry.ips).getD [])
  else (c.put q.key ⟨ips, now + DEFAULT_TTL_MS⟩, q.caller.map fun _ => ips)

-- ----
-- The threads

/-- The resolver's answer for a key, and when it was stored. -/
structure Answer where
  key : Text
  ips : List Text
  time : Int

/-- What a call was given for a host that is no address: when, whether the host was that of the
active proxy, and whether the resolver had no answer to it. -/
structure Given where
  key : Text
  ips : List Text
  time : Int
  active : Bool
  unanswered : Bool

/-- The object, the questions that are open, and what there was so far. -/
structure World where
  dns : DnsCache := {}
  questions : List Question := []
  answers : List Answer := []
  given : List Given := []

inductive Event where
  | setActiveProxyDomain (domain : Option Text)
  | resolveAll (now : Int) (host : Text)
  /-- The resolver answers the question at this place, or throws, which is the empty answer. -/
  | answer (now : Int) (i : Nat) (addresses : List Text)

namespace World

def ask (w : World) (platform : Platform) (now : Int) (host : Text) : World :=
  let asked := w.dns.resolveAll platform now host
  let key := platform.lowercase (stripBrackets host)
  { w with
    dns := asked.1
    questions := w.questions ++ asked.2.2.toList
    given := w.given ++
      if isIpAddress platform (stripBrackets host) then []
      else asked.2.1.toList.map fun ips =>
      ⟨key, ips, now, w.dns.activeProxyDomain = some key, false⟩ }

def tell (w : World) (now : Int) (i : Nat) (q : Question) (addresses : List Text) : World :=
  let told := w.dns.resolveAndCache now q addresses
  { dns := told.1
    questions := w.questions.eraseIdx i
    answers := w.answers ++ if addresses.eraseDups = [] then []
    else [⟨q.key, addresses.eraseDups, now⟩]
    given := w.given ++ told.2.toList.map fun ips => ⟨q.key, ips, now, false,
      addresses.eraseDups = []⟩ }

def step (platform : Platform) (w : World) : Event → World
  | .setActiveProxyDomain domain => { w with dns := w.dns.setActiveProxyDomain platform domain }
  | .resolveAll now host => w.ask platform now host
  | .answer now i addresses =>
    match w.questions[i]? with
    | none => w
    | some q => w.tell now i q addresses

end World

-- ----
-- Where the answers come from

/-- Some answer for the key, which was not empty. -/
def Told (answers : List Answer) (key : Text) (ips : List Text) (P : Int → Prop) : Prop :=
  ∃ a ∈ answers, a.key = key ∧ a.ips = ips ∧ ips ≠ [] ∧ P a.time

theorem Told.mono {answers more : List Answer} {key : Text} {ips : List Text} {P : Int → Prop}
    (h : Told answers key ips P) : Told (answers ++ more) key ips P := by
  obtain ⟨a, ha, htold⟩ := h
  exact ⟨a, mem_append_left _ ha, htold⟩

theorem Told.imp {answers : List Answer} {key : Text} {ips : List Text} {P Q : Int → Prop}
    (h : Told answers key ips P) (hPQ : ∀ t, P t → Q t) : Told answers key ips Q := by
  obtain ⟨a, ha, hkey, hips, hne, hP⟩ := h
  exact ⟨a, ha, hkey, hips, hne, hPQ _ hP⟩

/-- A caller is given an answer no older than two minutes, but for the active proxy, and for a
host that the resolver had no answer for. -/
def Given.Accounted (answers : List Answer) (g : Given) : Prop :=
  (g.ips = [] ∧ g.unanswered = true) ∨
    Told answers g.key g.ips fun t => g.time < t + DEFAULT_TTL_MS ∨ g.active = true ∨
      g.unanswered = true

/-- The entries, the open questions and what was given, with the answers so far. -/
structure Accounts (w : World) : Prop where
  cache : ∀ p ∈ w.dns.cache, Told w.answers p.1 p.2.ips fun t => p.2.expiry = t + DEFAULT_TTL_MS
  questions : ∀ q ∈ w.questions, ∀ e, q.caller = some (some e) → Told w.answers q.key e.ips
    fun _ => True
  given : ∀ g ∈ w.given, g.Accounted w.answers

theorem mem_of_entry {c : DnsCache} {key : Text} {e : CacheEntry} (h : c.entry key = some e) :
    (key, e) ∈ c.cache := by
  obtain ⟨p, hfind, rfl⟩ := Option.map_eq_some_iff.mp h
  have hkey := List.find?_some hfind
  rw [decide_eq_true_iff] at hkey
  rw [← hkey]
  exact List.mem_of_find?_eq_some hfind

/-- What is in the map after a call was there before. -/
theorem mem_resolveAll {platform : Platform} {now : Int} {host : Text} {c : DnsCache}
    {p : Text × CacheEntry} (h : p ∈ (c.resolveAll platform now host).1.cache) : p ∈ c.cache := by
  rw [resolveAll] at h
  dsimp only at h
  split at h
  · exact h
  · split at h
    · exact h
    · dsimp only at h
      split at h
      · exact List.mem_of_mem_filter h
      · exact h

theorem accounted_ask {w : World} (h : Accounts w) (platform : Platform) (now : Int) (host : Text) :
    Accounts (w.ask platform now host) where
  cache := fun p hp => h.cache p (mem_resolveAll hp)
  questions := by
    intro q hq e he
    rcases mem_append.mp hq with hq | hq
    · exact h.questions q hq e he
    · rw [resolveAll] at hq
      dsimp only at hq
      split at hq
      · cases hq
      · split at hq
        · rw [Option.mem_toList] at hq
          dsimp only at hq
          split at hq
          · cases hq
          · cases hq
            cases he
        · rw [Option.mem_toList] at hq
          cases hq
          have hentry := h.cache _ (mem_of_entry (Option.some.inj he))
          exact hentry.imp fun _ _ => trivial
  given := by
    intro g hg
    rcases mem_append.mp hg with hg | hg
    · exact h.given g hg
    · split at hg
      · cases hg
      · rename_i hhost
        obtain ⟨ips, hips, rfl⟩ := mem_map.mp hg
        rw [Option.mem_toList, resolveAll] at hips
        dsimp only at hips
        rw [if_neg hhost] at hips
        split at hips
        · rename_i e he
          obtain ⟨hentry, hfresh⟩ := Option.filter_eq_some_iff.mp he
          rw [decide_eq_true_iff] at hfresh
          cases hips
          refine .inr ((h.cache _ (mem_of_entry hentry)).imp fun t ht => ?_)
          rcases hfresh with hfresh | hactive
          · exact .inl (ht ▸ hfresh)
          · exact .inr (.inl (decide_eq_true hactive))
        · cases hips

theorem accounted_tell {w : World} (h : Accounts w) {now : Int} {i : Nat} {q : Question}
    (hq : w.questions[i]? = some q) (addresses : List Text) :
    Accounts (w.tell now i q addresses) := by
  have hquestion := List.mem_of_getElem? hq
  by_cases hnone : addresses.eraseDups = []
  · refine ⟨fun p hp => ?_, fun q' hq' e he => ?_, fun g hg => ?_⟩
    · rw [World.tell, resolveAndCache, if_pos hnone] at hp
      exact (h.cache p hp).mono
    · exact (h.questions q' (List.mem_of_mem_eraseIdx hq') e he).mono
    · rcases mem_append.mp hg with hg | hg
      · rcases h.given g hg with hempty | htold
        · exact .inl hempty
        · exact .inr htold.mono
      · obtain ⟨ips, hips, rfl⟩ := mem_map.mp hg
        rw [Option.mem_toList, resolveAndCache, if_pos hnone] at hips
        obtain ⟨seen, hcaller, rfl⟩ := Option.map_eq_some_iff.mp hips
        rcases seen with _ | e
        · exact .inl ⟨rfl, decide_eq_true hnone⟩
        · exact .inr ((h.questions q hquestion e hcaller).mono.imp fun _ _ =>
            .inr (.inr (decide_eq_true hnone)))
  · have htold : Told (w.answers ++ [⟨q.key, addresses.eraseDups, now⟩]) q.key addresses.eraseDups
        (· = now) :=
      ⟨_, mem_append_right _ (mem_singleton.mpr rfl), rfl, rfl, hnone, rfl⟩
    have hanswers : (w.tell now i q addresses).answers = w.answers ++
        [⟨q.key, addresses.eraseDups, now⟩] := by
      rw [World.tell, if_neg hnone]
    refine ⟨fun p hp => ?_, fun q' hq' e he => ?_, fun g hg => ?_⟩
    · rw [hanswers]
      rw [World.tell, resolveAndCache, if_neg hnone] at hp
      rcases mem_cons.mp hp with rfl | hp
      · exact htold.imp fun t ht => by rw [ht]
      · exact (h.cache p (List.mem_of_mem_filter hp)).mono
    · exact (h.questions q' (List.mem_of_mem_eraseIdx hq') e he).mono
    · rcases mem_append.mp hg with hg | hg
      · rcases h.given g hg with hempty | htold
        · exact .inl hempty
        · exact .inr htold.mono
      · rw [hanswers]
        obtain ⟨ips, hips, rfl⟩ := mem_map.mp hg
        rw [Option.mem_toList, resolveAndCache, if_neg hnone] at hips
        obtain ⟨seen, -, rfl⟩ := Option.map_eq_some_iff.mp hips
        refine .inr (htold.imp fun t ht => .inl ?_)
        show now < t + 120000
        omega

/-- A step keeps account of what callers are given. -/
theorem accounted_step (platform : Platform) (w : World) (e : Event) (h : Accounts w) :
    Accounts (w.step platform e) := by
  cases e with
  | setActiveProxyDomain domain => exact ⟨h.cache, h.questions, h.given⟩
  | resolveAll now host => exact accounted_ask h platform now host
  | answer now i addresses =>
    rw [World.step]
    split
    · exact h
    · exact accounted_tell h ‹_› addresses

/-- In every run: what a caller is given for a domain is an answer of the resolver for that domain,
stored less than two minutes before, or older only for the active proxy or where the resolver had
no answer; it is empty only where there never was one to fall back to. -/
theorem answers_accounted (platform : Platform) (events : List Event) :
    Accounts (run (World.step platform) {} events) := by
  have hstart : Accounts {} :=
    ⟨fun p hp => absurd hp not_mem_nil, fun q hq => absurd hq not_mem_nil,
      fun g hg => absurd hg not_mem_nil⟩
  exact run_invariant (accounted_step platform) hstart events

-- ----
-- The active proxy

/-- The host was resolved, and its addresses are there. -/
def Known (key : Text) (c : DnsCache) : Prop := ∃ e, c.entry key = some e ∧ e.ips ≠ []

theorem entry_put (c : DnsCache) (key : Text) (e : CacheEntry) (key' : Text) :
    (c.put key e).entry key' = if key' = key then some e else c.entry key' := by
  rw [entry, put]
  split_ifs with h
  · subst h
    rw [find?_cons_of_pos (by simp)]
    rfl
  · rw [find?_cons_of_neg (by simpa using Ne.symm h), entry, find?_filter]
    congr 2
    funext p
    by_cases hp : p.1 = key'
    · simp [hp, h]
    · simp [hp]

theorem entry_evictExpired {c : DnsCache} {key : Text} (h : c.activeProxyDomain = some key)
    (now : Int) :
    (c.evictExpired now).entry key = c.entry key := by
  rw [entry, evictExpired, entry, find?_filter]
  congr 2
  funext p
  by_cases hp : p.1 = key
  · simp [hp, h]
  · simp [hp]

/-- The active proxy stays the one of this key. -/
def Event.Keeps (platform : Platform) (key : Text) : Event → Prop
  | .setActiveProxyDomain domain =>
      domain.map (fun d => platform.lowercase (stripBrackets d)) = some key
  | _ => True

theorem known_step {platform : Platform} {key : Text} {w : World} {e : Event}
    (hactive : w.dns.activeProxyDomain = some key) (he : e.Keeps platform key)
    (h : w.dns.Known key) :
    (w.step platform e).dns.Known key ∧ (w.step platform e).dns.activeProxyDomain = some key := by
  obtain ⟨known, hentry, hips⟩ := h
  cases e with
  | setActiveProxyDomain domain => exact ⟨⟨known, hentry, hips⟩, he⟩
  | resolveAll now host =>
    rw [World.step, World.ask, resolveAll]
    dsimp only
    split
    · exact ⟨⟨known, hentry, hips⟩, hactive⟩
    · split
      · exact ⟨⟨known, hentry, hips⟩, hactive⟩
      · dsimp only
        split
        · exact ⟨⟨known, (entry_evictExpired hactive now).trans hentry, hips⟩, hactive⟩
        · exact ⟨⟨known, hentry, hips⟩, hactive⟩
  | answer now i addresses =>
    rw [World.step]
    split
    · exact ⟨⟨known, hentry, hips⟩, hactive⟩
    · rename_i q _
      rw [World.tell, resolveAndCache]
      by_cases hnone : addresses.eraseDups = []
      · rw [if_pos hnone]
        exact ⟨⟨known, hentry, hips⟩, hactive⟩
      · rw [if_neg hnone]
        refine ⟨?_, hactive⟩
        rw [Known, entry_put]
        split_ifs with hkey
        · exact ⟨_, rfl, hnone⟩
        · exact ⟨known, hentry, hips⟩

/-- Once a question for the host of the active proxy has got an answer, whatever calls, evictions,
failures and answers follow, every call for that host returns addresses at once, at any time. -/
theorem active_proxy_answered (platform : Platform) {w : World} {key : Text}
    {q : Question} {now : Int} {i : Nat} {addresses : List Text}
    (hactive : w.dns.activeProxyDomain = some key) (hquestion : w.questions[i]? = some q)
    (hkey : q.key = key) (haddresses : addresses ≠ []) {events : List Event}
    (hevents : ∀ e ∈ events, e.Keeps platform key) (later : Int) (host : Text)
    (hhost : platform.lowercase (stripBrackets host) = key) :
    ∃ ips, ips ≠ [] ∧
      ((run (World.step platform) w (.answer now i addresses :: events)).dns.resolveAll platform
        later host).2.1 = some ips := by
  have hsome : addresses.eraseDups ≠ [] := by
    obtain ⟨a, rest, rfl⟩ := exists_cons_of_ne_nil haddresses
    rw [eraseDups_cons]
    exact cons_ne_nil _ _
  have hanswered : (w.step platform (.answer now i addresses)).dns.Known key ∧
      (w.step platform (.answer now i addresses)).dns.activeProxyDomain = some key := by
    rw [World.step, hquestion]
    dsimp only
    rw [World.tell, resolveAndCache, if_neg hsome]
    refine ⟨⟨⟨addresses.eraseDups, now + DEFAULT_TTL_MS⟩, ?_, hsome⟩, hactive⟩
    rw [entry_put, if_pos hkey.symm]
  have hrun := runAll_of_forall hevents (World.step platform)
    (w.step platform (.answer now i addresses))
  obtain ⟨⟨known, hentry, hips⟩, hstill⟩ := run_invariant_of
    (I := fun s : World => s.dns.Known key ∧ s.dns.activeProxyDomain = some key)
    (fun s e he hs => known_step hs.2 he hs.1) hrun hanswered
  rw [run_cons, resolveAll]
  dsimp only
  split
  · exact ⟨_, cons_ne_nil _ _, rfl⟩
  · rw [hhost, hentry, Option.filter_some, if_pos (decide_eq_true (Or.inr hstill))]
    exact ⟨_, hips, rfl⟩

/-- Eight minutes later, and after a failure to resolve it anew. -/
theorem active_proxy_answered_late :
    let platform : Platform := ⟨List.map Char.toLower, ⟨fun _ => none⟩⟩
    let question : Question := ⟨"proxy".toList, "proxy".toList, some none⟩
    ∃ ips, ips ≠ [] ∧ ((run (World.step platform)
      { dns := { activeProxyDomain := some "proxy".toList }, questions := [question] }
      [.answer 0 0 ["10.0.0.1".toList], .setActiveProxyDomain (some "[Proxy]".toList),
        .resolveAll 480000 "Proxy".toList, .answer 485000 0 []]).dns.resolveAll
        platform 490000 "[PROXY]".toList).2.1 = some ips := by
  intro platform question
  refine active_proxy_answered platform (q := question) rfl rfl rfl
    (cons_ne_nil _ _) ?_ _ _ (by decide)
  intro e he
  simp only [mem_cons, not_mem_nil, or_false] at he
  rcases he with rfl | rfl | rfl
  · show Option.map _ _ = _
    decide
  · trivial
  · trivial

end DnsCache

end Anywhere.Net
