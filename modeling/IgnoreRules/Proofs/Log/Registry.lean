import IgnoreRules.Log.Registry
import Mathlib.Data.List.Infix

/-!
# How long a logger is shared

There is one shared logger, not one for each name. It stays until someone asks for another name, and
whoever then asks for the first name again gets a new logger. The new one takes over the channel of
the name, so the level and the handlers that the old one was given are gone for all loggers of the
name.
-/

namespace IgnoreRules.Log.Registry

/-- What a program does with its loggers. Where only its channel counts, a logger is given by its
name. -/
inductive Call
  | create (name : String) (level : Value) (handlers : Option (List Handler))
  | setLevel (name : String) (level : Value)
  | addHandler (name : String) (handler : Handler)
  | get (name : String)
  | install (logger : Option Nat)

/-- The registry after a call. A level that cannot be set goes back to the caller as an error. -/
def Call.take (registry : Registry) : Call → Registry
  | .create name level handlers =>
    match registry.create name level handlers with
    | .ok (_, changed) => changed
    | .error _ => registry
  | .setLevel name level =>
    match registry.setLevel name level with
    | .ok changed => changed
    | .error _ => registry
  | .addHandler name handler => registry.addHandler name handler
  | .get name => (registry.get name).2
  | .install logger => registry.install logger

def after (registry : Registry) (calls : List Call) : Registry := calls.foldl Call.take registry

/-- A call that installs no logger and leaves the channel of a name alone, unless it asks for the
shared logger. -/
inductive Call.Aside (name : String) : Call → Prop
  | create {other : String} (apart : channelName other ≠ channelName name) (level : Value)
      (handlers : Option (List Handler)) : Aside name (.create other level handlers)
  | setLevel {other : String} (apart : channelName other ≠ channelName name) (level : Value) :
      Aside name (.setLevel other level)
  | addHandler {other : String} (apart : channelName other ≠ channelName name)
      (handler : Handler) : Aside name (.addHandler other handler)
  | get (other : String) : Aside name (.get other)

/-- A logger of a name has come to be shared: someone who asked for the name got it, or it was
installed. -/
inductive Settles (name : String) (logger : Nat) : Registry → Prop
  | returned {registry : Registry} (returned : (registry.get name).1 = logger) :
      Settles name logger (registry.get name).2
  | installed {registry : Registry} (named : registry.names[logger]? = some name) :
      Settles name logger (registry.install (some logger))

/-- A logger is the shared one and has a name. -/
structure Shares (registry : Registry) (logger : Nat) (name : String) : Prop where
  shared : registry.shared = some logger
  named : registry.names[logger]? = some name

theorem Shares.unique {registry : Registry} {logger other : Nat} {name own : String}
    (one : registry.Shares logger name) (another : registry.Shares other own) :
    logger = other ∧ name = own := by
  obtain rfl := Option.some.inj (one.shared.symm.trans another.shared)
  exact ⟨rfl, Option.some.inj (one.named.symm.trans another.named)⟩

theorem Shares.lt_length {registry : Registry} {logger : Nat} {name : String}
    (shares : registry.Shares logger name) : logger < registry.names.length :=
  (List.getElem?_eq_some_iff.mp shares.named).1

/-! ## Channels -/

theorem channel_congr (registry : Registry) {name other : String}
    (same : channelName other = channelName name) :
    registry.channel other = registry.channel name := congrArg registry.channels same

theorem channel_setChannel_self (registry : Registry) (name : String) (channel : Channel) :
    (registry.setChannel name channel).channel name = channel := if_pos rfl

theorem channel_setChannel_of_ne (registry : Registry) {name other : String} (channel : Channel)
    (apart : channelName other ≠ channelName name) :
    (registry.setChannel other channel).channel name = registry.channel name := if_neg apart.symm

/-! ## The shared logger -/

theorem get_of_shares {registry : Registry} {logger : Nat} {name : String}
    (shares : registry.Shares logger name) : registry.get name = (logger, registry) := by
  have kept : registry.shared.filter (fun logger => registry.names[logger]? = some name) =
      some logger := by
    simp [shares.shared, shares.named]
  simp only [get, kept]

/-- The registry with a new logger of a name, which is shared. -/
def renewed (registry : Registry) (name : String) : Registry :=
  (registry.add name Level.info.rank none).2.install (some registry.names.length)

theorem get_of_not_shares {registry : Registry} {name : String}
    (unlike : ∀ logger, ¬registry.Shares logger name) :
    registry.get name = (registry.names.length, registry.renewed name) := by
  have dropped : registry.shared.filter (fun logger => registry.names[logger]? = some name) =
      none := by
    simp only [Option.filter_eq_none_iff, decide_eq_true_eq]
    intro logger shared named
    exact unlike logger ⟨shared, named⟩
  simp only [get, dropped]
  rfl

theorem shares_renewed (registry : Registry) (name : String) :
    (registry.renewed name).Shares registry.names.length name :=
  ⟨rfl, List.getElem?_concat_length⟩

theorem channel_renewed (registry : Registry) (name : String) :
    (registry.renewed name).channel name =
      ⟨Level.info.rank, [.console registry.names.length]⟩ :=
  channel_setChannel_self registry name _

theorem Settles.shares {name : String} {logger : Nat} {registry : Registry}
    (settles : Settles name logger registry) : registry.Shares logger name := by
  cases settles with
  | installed named => exact ⟨rfl, named⟩
  | @returned registry returned =>
    by_cases known : ∃ logger, registry.Shares logger name
    · obtain ⟨same, shares⟩ := known
      rw [get_of_shares shares] at returned ⊢
      exact returned ▸ shares
    · rw [get_of_not_shares (not_exists.mp known)] at returned ⊢
      exact returned ▸ shares_renewed registry name

/-! ## Calls that keep the shared logger -/

/-- No logger is lost, and the shared one and the channel of a name are still the same. -/
structure Kept (name : String) (before behind : Registry) : Prop where
  names : before.names <+: behind.names
  shared : behind.shared = before.shared
  channel : behind.channel name = before.channel name

namespace Kept

variable {name : String} {first second third : Registry}

theorem refl (name : String) (registry : Registry) : Kept name registry registry :=
  ⟨List.prefix_rfl, rfl, rfl⟩

theorem trans (one : Kept name first second) (other : Kept name second third) :
    Kept name first third :=
  ⟨one.names.trans other.names, other.shared.trans one.shared, other.channel.trans one.channel⟩

theorem shares (kept : Kept name first second) {logger : Nat} {other : String}
    (shares : first.Shares logger other) : second.Shares logger other where
  shared := kept.shared.trans shares.shared
  named := by
    obtain ⟨inside, named⟩ := List.getElem?_eq_some_iff.mp shares.named
    rw [kept.names.getElem inside] at named
    exact List.getElem?_eq_some_iff.mpr ⟨_, named⟩

theorem setChannel (registry : Registry) {other : String} (channel : Channel)
    (apart : channelName other ≠ channelName name) :
    Kept name registry (registry.setChannel other channel) :=
  ⟨List.prefix_rfl, rfl, channel_setChannel_of_ne registry channel apart⟩

theorem add (registry : Registry) {other : String} (threshold : Int)
    (handlers : Option (List Handler)) (apart : channelName other ≠ channelName name) :
    Kept name registry (registry.add other threshold handlers).2 :=
  ⟨List.prefix_append _ _, rfl, channel_setChannel_of_ne registry _ apart⟩

/-- Only a request for the shared logger can replace it. -/
theorem take (registry : Registry) {call : Call} (aside : call.Aside name)
    (noRequest : ∀ other, call ≠ .get other) : Kept name registry (call.take registry) := by
  cases aside with
  | get other => exact absurd rfl (noRequest other)
  | addHandler apart handler => exact setChannel registry _ apart
  | setLevel apart level =>
    simp only [Call.take, Registry.setLevel]
    cases threshold level with
    | error problem => exact refl name registry
    | ok threshold => exact setChannel registry _ apart
  | create apart level handlers =>
    simp only [Call.take, Registry.create]
    cases threshold level with
    | error problem => exact refl name registry
    | ok threshold => exact add registry threshold handlers apart

/-- As long as nobody asks for another name, the shared logger stays as it is. -/
theorem after {registry : Registry} {logger : Nat} (shares : registry.Shares logger name)
    (calls : List Call) (aside : ∀ call ∈ calls, call.Aside name)
    (same : ∀ other, .get other ∈ calls → other = name) :
    Kept name registry (registry.after calls) := by
  induction calls generalizing registry with
  | nil => exact refl name registry
  | cons call calls ih =>
    have step : Kept name registry (call.take registry) := by
      by_cases request : ∃ other, call = .get other
      · obtain ⟨other, rfl⟩ := request
        obtain rfl := same other List.mem_cons_self
        rw [Call.take, get_of_shares shares]
        exact refl other registry
      · exact take registry (aside call List.mem_cons_self) (not_exists.mp request)
    refine step.trans (ih (step.shares shares) ?_ ?_)
    · intro later among
      exact aside later (List.mem_cons_of_mem call among)
    · intro other among
      exact same other (List.mem_cons_of_mem call among)

end Kept

/-! ## Calls that replace the shared logger -/

/-- The shared logger is newer than those of a number, and if it writes to the channel of a name,
the channel is as it has opened it. -/
structure Newer (since : Nat) (name : String) (registry : Registry) (logger : Nat)
    (own : String) : Prop where
  shares : registry.Shares logger own
  late : since ≤ logger
  opened : channelName own = channelName name →
    registry.channel name = ⟨Level.info.rank, [.console logger]⟩

namespace Newer

variable {since : Nat} {name : String} {registry : Registry}

theorem renewed (name : String) (late : since ≤ registry.names.length) (own : String) :
    Newer since name (registry.renewed own) registry.names.length own where
  shares := shares_renewed registry own
  late := late
  opened := by
    intro same
    rw [← channel_congr _ same]
    exact channel_renewed registry own

/-- Whoever asks gets a logger that is newer. -/
theorem get {logger : Nat} {own : String} (newer : Newer since name registry logger own)
    (other : String) :
    Newer since name (registry.get other).2 (registry.get other).1 other := by
  by_cases known : ∃ logger, registry.Shares logger other
  · obtain ⟨same, shares⟩ := known
    obtain ⟨rfl, rfl⟩ := newer.shares.unique shares
    rw [get_of_shares shares]
    exact newer
  · rw [get_of_not_shares (not_exists.mp known)]
    exact renewed name (newer.late.trans newer.shares.lt_length.le) other

theorem take {logger : Nat} {own : String} (newer : Newer since name registry logger own)
    {call : Call} (aside : call.Aside name) :
    ∃ logger own, Newer since name (call.take registry) logger own := by
  by_cases request : ∃ other, call = .get other
  · obtain ⟨other, rfl⟩ := request
    exact ⟨_, other, newer.get other⟩
  · have kept := Kept.take registry aside (not_exists.mp request)
    exact ⟨logger, own, kept.shares newer.shares, newer.late,
      fun same => kept.channel.trans (newer.opened same)⟩

theorem after {logger : Nat} {own : String} (newer : Newer since name registry logger own)
    (calls : List Call) (aside : ∀ call ∈ calls, call.Aside name) :
    ∃ logger own, Newer since name (registry.after calls) logger own := by
  induction calls generalizing registry logger own with
  | nil => exact ⟨logger, own, newer⟩
  | cons call calls ih =>
    obtain ⟨next, nextOwn, step⟩ := newer.take (aside call List.mem_cons_self)
    exact ih step fun later among => aside later (List.mem_cons_of_mem call among)

end Newer

/-- Once someone has asked for another name, the shared logger is a newer one. -/
theorem exists_newer {since : Nat} {registry : Registry} {logger : Nat} {name : String}
    (known : since ≤ registry.names.length) (shares : registry.Shares logger name)
    (calls : List Call) (aside : ∀ call ∈ calls, call.Aside name)
    (another : ∃ other, .get other ∈ calls ∧ other ≠ name) :
    ∃ newest own, Newer since name (registry.after calls) newest own := by
  -- Up to the first request for another name the shared logger is kept, from there on it is newer.
  induction calls generalizing registry with
  | nil =>
    obtain ⟨_, ⟨⟩, _⟩ := another
  | cons call calls ih =>
    have asideOfRest : ∀ later ∈ calls, later.Aside name :=
      fun later among => aside later (List.mem_cons_of_mem call among)
    by_cases first : ∃ other, call = .get other ∧ other ≠ name
    · obtain ⟨other, rfl, unlike⟩ := first
      have replaced : ∀ found, ¬registry.Shares found other :=
        fun found sharesOther => unlike (sharesOther.unique shares).2
      have newer : Newer since name (Call.take registry (.get other)) registry.names.length
          other := by
        rw [Call.take, get_of_not_shares replaced]
        exact .renewed name known other
      exact newer.after calls asideOfRest
    · have step : Kept name registry (call.take registry) := by
        refine Kept.after shares [call] ?_ ?_
        · simpa using aside call List.mem_cons_self
        · intro other only
          by_contra unlike
          exact first ⟨other, (List.mem_singleton.mp only).symm, unlike⟩
      obtain ⟨other, among, unlike⟩ := another
      have inRest : .get other ∈ calls := by
        rcases List.mem_cons.mp among with rfl | inRest
        · exact absurd ⟨other, rfl, unlike⟩ first
        · exact inRest
      exact ih (known.trans step.names.length_le) (step.shares shares) asideOfRest
        ⟨other, inRest, unlike⟩

/-! ## Asking again -/

/-- A logger of a name has been returned or installed, and after some calls that install none the
name is asked for again. If no other name was asked for meanwhile, this gives the same logger, whose
level and handlers have not changed; otherwise it gives a new one, and the level and handlers of the
name are those of a new logger. -/
theorem get_after {registry : Registry} {logger : Nat} {name : String}
    (settles : Settles name logger registry) (calls : List Call)
    (aside : ∀ call ∈ calls, call.Aside name) :
    let again := (registry.after calls).get name
    ((∀ other, .get other ∈ calls → other = name) →
      again.1 = logger ∧ again.2.channel name = registry.channel name) ∧
    ((∃ other, .get other ∈ calls ∧ other ≠ name) →
      registry.names.length ≤ again.1 ∧ again.1 ≠ logger ∧
        again.2.channel name = ⟨Level.info.rank, [.console again.1]⟩) := by
  intro again
  have shares := settles.shares
  constructor
  · intro same
    have kept := Kept.after shares calls aside same
    have found : again = (logger, registry.after calls) := get_of_shares (kept.shares shares)
    rw [found]
    exact ⟨rfl, kept.channel⟩
  · intro another
    obtain ⟨newest, own, newer⟩ := exists_newer le_rfl shares calls aside another
    have found := newer.get name
    exact ⟨found.late, (shares.lt_length.trans_le found.late).ne', found.opened rfl⟩

/-- A logger for errors alone is kept while another one is created, and lost to a request for
another name. -/
theorem get_after_installed :
    let registry := (empty.add "ignoreparser.a" Level.error.rank none).2.install (some 0)
    let kept := [.get "ignoreparser.a", .create "ignoreparser.b" (.text "debug") (some [])]
    let again := (registry.after kept).get "ignoreparser.a"
    let renewed := (registry.after (.get "ignoreparser.b" :: kept)).get "ignoreparser.a"
    again.1 = 0 ∧ again.2.channel "ignoreparser.a" = ⟨40, [.console 0]⟩ ∧
      renewed.1 ≠ 0 ∧ renewed.2.channel "ignoreparser.a" = ⟨20, [.console renewed.1]⟩ := by
  intro registry kept
  have settles : Settles "ignoreparser.a" 0 registry := .installed rfl
  have aside : ∀ call ∈ kept, call.Aside "ignoreparser.a" :=
    List.forall_mem_cons.mpr ⟨.get _, List.forall_mem_singleton.mpr (.create (by decide) _ _)⟩
  obtain ⟨same, _⟩ := get_after settles kept aside
  obtain ⟨found, channel⟩ := same (by simp [kept])
  obtain ⟨_, another⟩ := get_after settles (.get "ignoreparser.b" :: kept)
    (List.forall_mem_cons.mpr ⟨.get _, aside⟩)
  obtain ⟨_, unlike, opened⟩ := another ⟨"ignoreparser.b", List.mem_cons_self, by decide⟩
  exact ⟨found, channel, unlike, opened⟩

/-- The level and the handlers of a logger that was installed are lost to a request for another
name. -/
theorem get_after_another :
    let registry := (empty.add "ignoreparser.a" Level.error.rank none).2.install (some 0)
    let again := (registry.after [.get "ignoreparser.b"]).get "ignoreparser.a"
    Settles "ignoreparser.a" 0 registry ∧ again.1 = 2 ∧
      again.2.channel "ignoreparser.a" = ⟨20, [.console 2]⟩ :=
  ⟨.installed rfl, rfl, rfl⟩

end IgnoreRules.Log.Registry
