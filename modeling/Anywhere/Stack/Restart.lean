import Anywhere.Config
import Anywhere.Lib.Machine

/-!
# Anywhere — restarts of `LwipStack`

Every change the stack reacts to ends in `restartStack`, which restarts at once
or, within two seconds of the last restart, puts the restart off. What is put off
keeps the arguments of the request that was put off last. The handlers take what
they do not supply themselves from the running stack, so a request handled while
another one waits can carry older values than the one it replaces.

* `Requested` — what the events asked for, without any stack.
* `restart_keeps_updates` — no update is lost in exactly the runs of such requests.
-/

namespace Anywhere.Stack

open Lib

/-- `TunnelConstants.restartThrottleNanos`. -/
def restartThrottleNanos : Int := 2000000000

/-- The settings a restart loads from the preferences. -/
structure Settings where
  bypassCountryCode : String := ""
  encryptedDnsEnabled : Bool := false
  encryptedDnsProtocol : String := "doh"
  encryptedDnsServer : String := ""
  blockQuicEnabled : Bool := true
  proxyMode : String := "rule"
  deriving DecidableEq

/-- The preferences, as the getters with their defaults read them. -/
structure Prefs where
  ipv6DnsEnabled : Bool := false
  settings : Settings := {}

/-- The arguments a deferred restart was scheduled with. -/
structure Deferred where
  config : ProxyConfiguration
  ipv6Dns : Bool

structure LwipStack where
  running : Bool := false
  configuration : Option ProxyConfiguration := none
  ipv6DNSEnabled : Bool := false
  settings : Settings := {}
  lastRestartNanos : Int := 0
  deferredRestart : Option Deferred := none
  prefs : Prefs := {}

/-- Two readings of `System.nanoTime()`: in `restartStack`, and in `restartStackNow`. -/
structure Clock where
  now : Int
  restarted : Int

namespace LwipStack

/-- `restartStackNow`; `shutdownInternal` cancels what is deferred as well. -/
def restartStackNow (s : LwipStack) (config : ProxyConfiguration) (ipv6Dns : Bool)
    (clock : Clock) : LwipStack :=
  { s with
    deferredRestart := none
    lastRestartNanos := clock.restarted
    configuration := some config
    ipv6DNSEnabled := ipv6Dns
    settings := s.prefs.settings }

def restartStack (s : LwipStack) (config : ProxyConfiguration) (ipv6Dns : Bool)
    (clock : Clock) : LwipStack :=
  let elapsed := clock.now - s.lastRestartNanos
  if elapsed < restartThrottleNanos then
    { s with deferredRestart := some ⟨config, ipv6Dns⟩ }
  else s.restartStackNow config ipv6Dns clock

/-- The task `restartStack` scheduled; one that was cancelled does not run. -/
def runDeferred (s : LwipStack) (clock : Clock) : LwipStack :=
  match s.deferredRestart with
  | none => s
  | some deferred =>
    let s := { s with deferredRestart := none }
    if s.running then s.restartStackNow deferred.config deferred.ipv6Dns clock else s

def switchConfiguration (s : LwipStack) (newConfig : ProxyConfiguration) (clock : Clock) :
    LwipStack :=
  s.restartStack newConfig s.ipv6DNSEnabled clock

/-- `handleNetworkPathChange`, `handleRoutingChanged` and
`handleCertificatePolicyChanged`: a restart with what the stack runs with. -/
def restartCurrent (s : LwipStack) (clock : Clock) : LwipStack :=
  if s.running then
    match s.configuration with
    | none => s
    | some config => s.restartStack config s.ipv6DNSEnabled clock
  else s

/-- `handleSettingsChanged`; settings that are all as they were are ignored. -/
def handleSettingsChanged (s : LwipStack) (clock : Clock) : LwipStack :=
  if s.running then
    match s.configuration with
    | none => s
    | some config =>
      if s.prefs.ipv6DnsEnabled = s.ipv6DNSEnabled ∧ s.prefs.settings = s.settings then s
      else s.restartStack config s.prefs.ipv6DnsEnabled clock
  else s

def started (config : ProxyConfiguration) (ipv6Dns : Bool) (prefs : Prefs) : LwipStack :=
  { running := true
    configuration := some config
    ipv6DNSEnabled := ipv6Dns
    settings := prefs.settings
    prefs := prefs }

end LwipStack

/-- What the executor runs, and changes of the preferences. -/
inductive Event where
  | preferences (prefs : Prefs)
  | switchConfiguration (newConfig : ProxyConfiguration) (clock : Clock)
  | networkPathChange (clock : Clock)
  | routingChanged (clock : Clock)
  | certificatePolicyChanged (clock : Clock)
  | settingsChanged (clock : Clock)
  | deferredRestart (clock : Clock)

def step (s : LwipStack) : Event → LwipStack
  | .preferences prefs => { s with prefs := prefs }
  | .switchConfiguration newConfig clock => s.switchConfiguration newConfig clock
  | .networkPathChange clock => s.restartCurrent clock
  | .routingChanged clock => s.restartCurrent clock
  | .certificatePolicyChanged clock => s.restartCurrent clock
  | .settingsChanged clock => s.handleSettingsChanged clock
  | .deferredRestart clock => s.runDeferred clock

-- ----
-- What was asked for

/-- The configuration and the IPv6 setting of the last event that supplied them. -/
structure Requested where
  config : ProxyConfiguration
  ipv6Dns : Bool
  prefs : Prefs

/-- `switchConfiguration` supplies a configuration, `handleSettingsChanged` the IPv6
setting it reads, and no other event supplies either. -/
def request (w : Requested) : Event → Requested
  | .preferences prefs => { w with prefs := prefs }
  | .switchConfiguration newConfig _ => { w with config := newConfig }
  | .settingsChanged _ => { w with ipv6Dns := w.prefs.ipv6DnsEnabled }
  | .networkPathChange _ => w
  | .routingChanged _ => w
  | .certificatePolicyChanged _ => w
  | .deferredRestart _ => w

/-- With no restart deferred, the stack was started with what was asked for. -/
def Settled (s : LwipStack) (w : Requested) : Prop :=
  s.deferredRestart = none → s.configuration = some w.config ∧ s.ipv6DNSEnabled = w.ipv6Dns

/-- A request handled while a restart is deferred carries the values that wait: what
it does not supply itself, it takes from the running stack. -/
def Fresh (s : LwipStack) (e : Event) : Prop :=
  ∀ deferred, s.deferredRestart = some deferred →
    match e with
    | .preferences _ => True
    | .deferredRestart _ => True
    | .switchConfiguration _ _ => deferred.ipv6Dns = s.ipv6DNSEnabled
    | .settingsChanged _ =>
      if s.prefs.ipv6DnsEnabled = s.ipv6DNSEnabled ∧ s.prefs.settings = s.settings then
        deferred.ipv6Dns = s.ipv6DNSEnabled
      else s.configuration = some deferred.config
    | .networkPathChange _ | .routingChanged _ | .certificatePolicyChanged _ =>
      s.configuration = some deferred.config ∧ deferred.ipv6Dns = s.ipv6DNSEnabled

-- ----
-- One step

/-- The stack runs, and what it runs with or waits for is what was asked for. -/
structure Agrees (s : LwipStack) (w : Requested) : Prop where
  running : s.running = true
  prefs : s.prefs = w.prefs
  configured : s.configuration.isSome
  settled : Settled s w
  deferred : ∀ d, s.deferredRestart = some d → d.config = w.config ∧ d.ipv6Dns = w.ipv6Dns

section Step

variable {s : LwipStack} {w : Requested}

theorem started_agrees (config : ProxyConfiguration) (ipv6Dns : Bool) (prefs : Prefs) :
    Agrees (LwipStack.started config ipv6Dns prefs) ⟨config, ipv6Dns, prefs⟩ :=
  ⟨rfl, rfl, rfl, fun _ => ⟨rfl, rfl⟩, fun _ h => by cases h⟩

/-- A restart, at once or put off, agrees with a request exactly when its arguments
are what was asked for. -/
theorem restartStack_agrees_iff (hrun : s.running = true) (hprefs : s.prefs = w.prefs)
    (hconf : s.configuration.isSome) (config : ProxyConfiguration) (ipv6Dns : Bool)
    (clock : Clock) :
    Agrees (s.restartStack config ipv6Dns clock) w ↔ config = w.config ∧ ipv6Dns = w.ipv6Dns := by
  unfold LwipStack.restartStack
  dsimp only
  split
  · constructor
    · intro h
      exact h.deferred ⟨config, ipv6Dns⟩ rfl
    · rintro ⟨rfl, rfl⟩
      refine ⟨hrun, hprefs, hconf, fun h => (by cases h), fun d hd => ?_⟩
      cases hd
      exact ⟨rfl, rfl⟩
  · constructor
    · intro h
      obtain ⟨hconfig, hipv6⟩ := h.settled rfl
      exact ⟨Option.some.inj hconfig, hipv6⟩
    · rintro ⟨rfl, rfl⟩
      exact ⟨hrun, hprefs, rfl, fun _ => ⟨rfl, rfl⟩, fun _ hd => by cases hd⟩

/-- What waits, or else what runs, is what was asked for. -/
theorem Agrees.current (h : Agrees s w) :
    (∃ d, s.deferredRestart = some d ∧ d.config = w.config ∧ d.ipv6Dns = w.ipv6Dns) ∨
      (s.deferredRestart = none ∧ s.configuration = some w.config ∧
        s.ipv6DNSEnabled = w.ipv6Dns) := by
  cases hd : s.deferredRestart with
  | none => exact .inr ⟨rfl, h.settled hd⟩
  | some d => exact .inl ⟨d, rfl, h.deferred d hd⟩

theorem restartCurrent_agrees_iff (h : Agrees s w) (clock : Clock) :
    Agrees (s.restartCurrent clock) w ↔ ∀ d, s.deferredRestart = some d →
      s.configuration = some d.config ∧ d.ipv6Dns = s.ipv6DNSEnabled := by
  obtain ⟨config, hconfig⟩ := Option.isSome_iff_exists.mp h.configured
  rw [LwipStack.restartCurrent, h.running, if_pos rfl, hconfig]
  dsimp only
  rw [restartStack_agrees_iff h.running h.prefs h.configured]
  rcases h.current with ⟨d, hd, hdc, hdv⟩ | ⟨hd, hsc, hsv⟩
  · rw [hd, ← hdc, ← hdv]
    constructor
    · rintro ⟨rfl, hipv6⟩ d' hd'
      cases hd'
      exact ⟨rfl, hipv6.symm⟩
    · intro hfresh
      obtain ⟨hc, hv⟩ := hfresh d rfl
      exact ⟨Option.some.inj hc, hv.symm⟩
  · rw [hconfig] at hsc
    rw [hd]
    exact ⟨fun _ d' hd' => (by cases hd'), fun _ => ⟨Option.some.inj hsc, hsv⟩⟩

/-- **The requests that lose nothing.** -/
theorem step_agrees_iff (h : Agrees s w) (e : Event) :
    Agrees (step s e) (request w e) ↔ Fresh s e := by
  cases e with
  | preferences prefs =>
    refine ⟨fun _ _ _ => trivial, fun _ => ⟨h.running, rfl, h.configured, h.settled, h.deferred⟩⟩
  | networkPathChange clock => exact restartCurrent_agrees_iff h clock
  | routingChanged clock => exact restartCurrent_agrees_iff h clock
  | certificatePolicyChanged clock => exact restartCurrent_agrees_iff h clock
  | deferredRestart clock =>
    refine ⟨fun _ _ _ => trivial, fun _ => ?_⟩
    show Agrees (s.runDeferred clock) w
    unfold LwipStack.runDeferred
    rcases h.current with ⟨d, hd, hdc, hdv⟩ | ⟨hd, hcurrent⟩
    · rw [hd]
      dsimp only
      rw [if_pos h.running]
      exact ⟨h.running, h.prefs, rfl, fun _ => ⟨congrArg some hdc, hdv⟩, fun _ hd => by cases hd⟩
    · rw [hd]
      exact h
  | switchConfiguration newConfig clock =>
    show Agrees (s.restartStack newConfig s.ipv6DNSEnabled clock) _ ↔ _
    rw [restartStack_agrees_iff (w := request w (.switchConfiguration newConfig clock))
      h.running h.prefs h.configured]
    show (newConfig = newConfig ∧ s.ipv6DNSEnabled = w.ipv6Dns) ↔ _
    rcases h.current with ⟨d, hd, -, hdv⟩ | ⟨hd, -, hsv⟩
    · constructor
      · rintro ⟨-, hipv6⟩ d' hd'
        rw [hd] at hd'
        cases hd'
        exact hdv.trans hipv6.symm
      · intro hfresh
        exact ⟨rfl, (hfresh d hd).symm.trans hdv⟩
    · refine ⟨fun _ d' hd' => ?_, fun _ => ⟨rfl, hsv⟩⟩
      rw [hd] at hd'
      cases hd'
  | settingsChanged clock =>
    obtain ⟨config, hconfig⟩ := Option.isSome_iff_exists.mp h.configured
    show Agrees (s.handleSettingsChanged clock) _ ↔ _
    rw [LwipStack.handleSettingsChanged, h.running, if_pos rfl, hconfig]
    dsimp only
    unfold Fresh
    dsimp only
    by_cases hsame : s.prefs.ipv6DnsEnabled = s.ipv6DNSEnabled ∧ s.prefs.settings = s.settings
    · -- ignored, though the IPv6 setting was supplied
      rw [if_pos hsame]
      simp only [if_pos hsame]
      have hw : (request w (.settingsChanged clock)).ipv6Dns = s.ipv6DNSEnabled := by
        show w.prefs.ipv6DnsEnabled = _
        rw [← h.prefs, hsame.1]
      constructor
      · intro hagrees d hd
        exact (hagrees.deferred d hd).2.trans hw
      · intro hfresh
        refine ⟨h.running, h.prefs, h.configured, fun hd => ⟨(h.settled hd).1, hw.symm⟩,
          fun d hd => ⟨(h.deferred d hd).1, (hfresh d hd).trans hw.symm⟩⟩
    · rw [if_neg hsame, restartStack_agrees_iff (w := request w (.settingsChanged clock))
        h.running h.prefs h.configured]
      simp only [if_neg hsame]
      show (config = w.config ∧ s.prefs.ipv6DnsEnabled = w.prefs.ipv6DnsEnabled) ↔ _
      rw [h.prefs, hconfig]
      rcases h.current with ⟨d, hd, hdc, -⟩ | ⟨hd, hsc, -⟩
      · constructor
        · rintro ⟨hc, -⟩ d' hd'
          rw [hd] at hd'
          cases hd'
          rw [hc, hdc]
        · intro hfresh
          exact ⟨(Option.some.inj (hfresh d hd)).trans hdc, rfl⟩
      · refine ⟨fun _ d' hd' => ?_, fun _ => ⟨?_, rfl⟩⟩
        · rw [hd] at hd'
          cases hd'
        · rw [hconfig] at hsc
          exact Option.some.inj hsc

/-- No step stops the stack or takes its configuration away. -/
theorem step_configured (hrun : s.running = true) (hconf : s.configuration.isSome)
    (hprefs : s.prefs = w.prefs) (e : Event) :
    (step s e).running = true ∧ (step s e).configuration.isSome ∧
      (step s e).prefs = (request w e).prefs := by
  have hrestart : ∀ config ipv6Dns clock, (s.restartStack config ipv6Dns clock).running = true ∧
      (s.restartStack config ipv6Dns clock).configuration.isSome ∧
      (s.restartStack config ipv6Dns clock).prefs = w.prefs := by
    intro config ipv6Dns clock
    unfold LwipStack.restartStack
    dsimp only
    split
    · exact ⟨hrun, hconf, hprefs⟩
    · exact ⟨hrun, rfl, hprefs⟩
  obtain ⟨config, hconfig⟩ := Option.isSome_iff_exists.mp hconf
  have hcurrent : ∀ clock, s.restartCurrent clock =
      s.restartStack config s.ipv6DNSEnabled clock := by
    intro clock
    rw [LwipStack.restartCurrent, if_pos hrun, hconfig]
  cases e with
  | preferences prefs => exact ⟨hrun, hconf, rfl⟩
  | switchConfiguration newConfig clock => exact hrestart _ _ _
  | networkPathChange clock =>
    rw [step, hcurrent]
    exact hrestart _ _ _
  | routingChanged clock =>
    rw [step, hcurrent]
    exact hrestart _ _ _
  | certificatePolicyChanged clock =>
    rw [step, hcurrent]
    exact hrestart _ _ _
  | settingsChanged clock =>
    rw [step, LwipStack.handleSettingsChanged, if_pos hrun, hconfig]
    dsimp only
    split
    · exact ⟨hrun, hconf, hprefs⟩
    · exact hrestart _ _ _
  | deferredRestart clock =>
    rw [step, LwipStack.runDeferred]
    split
    · exact ⟨hrun, hconf, hprefs⟩
    · dsimp only
      rw [if_pos hrun]
      exact ⟨hrun, rfl, hprefs⟩

/-- What waits is what was asked for when the stack is settled after it ran. -/
theorem agrees_of_settled (hrun : s.running = true) (hconf : s.configuration.isSome)
    (hprefs : s.prefs = w.prefs) (hsettled : Settled s w) (clock : Clock)
    (hfired : Settled (step s (.deferredRestart clock)) w) : Agrees s w := by
  refine ⟨hrun, hprefs, hconf, hsettled, fun d hd => ?_⟩
  have hstep : step s (.deferredRestart clock) =
      LwipStack.restartStackNow { s with deferredRestart := none } d.config d.ipv6Dns clock := by
    rw [step, LwipStack.runDeferred, hd]
    dsimp only
    rw [if_pos hrun]
  rw [hstep] at hfired
  obtain ⟨hc, hv⟩ := hfired rfl
  exact ⟨Option.some.inj hc, hv⟩

end Step

-- ----
-- Runs

section Runs

variable {s : LwipStack} {w : Requested}

theorem run_agrees (h : Agrees s w) {events : List Event} (hfresh : RunAll step Fresh s events) :
    Agrees (run step s events) (run request w events) := by
  induction events generalizing s w with
  | nil => exact h
  | cons e events ih => exact ih ((step_agrees_iff h e).mpr hfresh.1) hfresh.2

theorem runAll_fresh_of_settled (h : Agrees s w) (clock : Clock) {events : List Event}
    (hsettled : ∀ seen, seen <+: events →
      Settled (run step s seen) (run request w seen) ∧
      Settled (run step s (seen ++ [Event.deferredRestart clock])) (run request w seen)) :
    RunAll step Fresh s events := by
  induction events generalizing s w with
  | nil => trivial
  | cons e events ih =>
    obtain ⟨hrun, hconf, hprefs⟩ := step_configured h.running h.configured h.prefs e
    have hagrees : Agrees (step s e) (request w e) := by
      obtain ⟨hnow, hfired⟩ := hsettled [e] (by simp)
      exact agrees_of_settled hrun hconf hprefs hnow clock hfired
    refine ⟨(step_agrees_iff h e).mp hagrees, ih hagrees fun seen hseen => ?_⟩
    exact hsettled (e :: seen) ((List.prefix_cons_inj e).mpr hseen)

/-- **No update is lost in exactly these runs**: whenever no restart is deferred, and
after the one that is deferred has run, the stack runs with what was asked for. -/
theorem restart_keeps_updates (config : ProxyConfiguration) (ipv6Dns : Bool) (prefs : Prefs)
    (clock : Clock) (events : List Event) :
    (∀ seen, seen <+: events →
      Settled (run step (LwipStack.started config ipv6Dns prefs) seen)
        (run request ⟨config, ipv6Dns, prefs⟩ seen) ∧
      Settled (run step (LwipStack.started config ipv6Dns prefs) (seen ++ [.deferredRestart clock]))
        (run request ⟨config, ipv6Dns, prefs⟩ seen)) ↔
    RunAll step Fresh (LwipStack.started config ipv6Dns prefs) events := by
  have hstart := started_agrees config ipv6Dns prefs
  constructor
  · exact runAll_fresh_of_settled hstart clock
  · rintro hfresh seen ⟨rest, rfl⟩
    have hagrees := run_agrees hstart (runAll_append.mp hfresh).1
    have hfired := (step_agrees_iff hagrees (.deferredRestart clock)).mpr fun _ _ => trivial
    rw [run_append]
    exact ⟨hagrees.settled, hfired.settled⟩

def serverA : ProxyConfiguration := { serverAddress := "a", serverPort := 443 }

def serverB : ProxyConfiguration := { serverAddress := "b", serverPort := 443 }

/-- A configuration is switched to one second after a restart, and the network path
changes before the deferred restart runs: it runs with the old configuration. -/
def lostSwitch : List Event :=
  [.networkPathChange ⟨5000000000, 5000000001⟩,
    .switchConfiguration serverB ⟨6000000000, 6000000001⟩,
    .networkPathChange ⟨6500000000, 6500000001⟩,
    .deferredRestart ⟨7000000000, 7000000001⟩]

theorem switch_lost_to_path_change :
    ¬ Settled (run step (LwipStack.started serverA false {}) lostSwitch)
      (run request ⟨serverA, false, {}⟩ lostSwitch) := by
  intro h
  have hconfig := (h rfl).1
  have haddress := congrArg (Option.map ProxyConfiguration.serverAddress) hconfig
  exact absurd haddress (by decide)

end Runs

end Anywhere.Stack
