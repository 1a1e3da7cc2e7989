import OpsNtpd.Framework.Keyed

/-! # Daemon: The ntpd that the Daemon Configures

  The part of ntpd that the daemon talks to: the servers it has mobilised, the
  keys it trusts and the key store it has loaded, and the `:config` commands
  that change them. `:config server a ..` for a server that is there may
  overwrite its options or leave them, so a run of commands is a relation.
-/

namespace OpsNtpd.Daemon

open Keyed

/-- The options of a server as ntpd has them. -/
structure ServerOpts where
  version : String
  key : Option String
  prefer : Bool
  deriving DecidableEq, Repr

structure Ntpd where
  servers : Dict String ServerOpts
  trusted : Finset Int
  /-- The text of the keys file that was read last. -/
  keyStore : String

/-- A `:config` command. -/
inductive ConfigCmd where
  | association (c : Cmd String ServerOpts)
  | trustedkey (keys : List Int)
  | unconfigTrustedkey (keys : List Int)
  deriving DecidableEq

/-- `:config server ..` -/
abbrev ConfigCmd.server (address : String) (o : ServerOpts) : ConfigCmd :=
  .association (.put address o)

/-- `:config unconfig ..` -/
abbrev ConfigCmd.unconfig (address : String) : ConfigCmd := .association (.drop address)

/-- `" ".join([str(x) for x in keys])` -/
def joinKeys (keys : List Int) : String := " ".intercalate (keys.map toString)

/-- The text of a command, from the templates of the daemon. -/
def ConfigCmd.render : ConfigCmd → String
  | .association (.put address o) =>
      ":config server " ++ address ++ " version " ++ o.version ++
        (match o.key with
          | none => ""
          | some key => " key " ++ key) ++
        (if o.prefer then " prefer" else "")
  | .association (.drop address) => ":config unconfig " ++ address
  | .trustedkey keys => ":config trustedkey " ++ joinKeys keys
  | .unconfigTrustedkey keys => ":config unconfig trustedkey " ++ joinKeys keys

/-- One command. -/
inductive Ntpd.Step (n : Ntpd) : ConfigCmd → Ntpd → Prop where
  | association {c : Cmd String ServerOpts} {servers : Dict String ServerOpts} :
      Keyed.Step n.servers c servers → Step n (.association c) { n with servers := servers }
  | trustedkey (keys : List Int) :
      Step n (.trustedkey keys) { n with trusted := n.trusted ∪ keys.toFinset }
  | unconfigTrustedkey (keys : List Int) :
      Step n (.unconfigTrustedkey keys) { n with trusted := n.trusted \ keys.toFinset }

/-- A list of commands. -/
inductive Ntpd.Run : Ntpd → List ConfigCmd → Ntpd → Prop where
  | nil (n : Ntpd) : Run n [] n
  | cons {n n₁ n' : Ntpd} {c : ConfigCmd} {cs : List ConfigCmd} :
      n.Step c n₁ → Run n₁ cs n' → Run n (c :: cs) n'

/-- `readkeys`: load the keys file. -/
def Ntpd.readkeys (n : Ntpd) (keysFile : String) : Ntpd := { n with keyStore := keysFile }

theorem Ntpd.run_nil_iff {n n' : Ntpd} : Ntpd.Run n [] n' ↔ n' = n := by
  constructor
  · intro h
    cases h
    rfl
  · intro h
    rw [h]
    exact Run.nil n

/-- Server commands change the servers as the keyed store does, and nothing else. -/
theorem Ntpd.run_associations {n n' : Ntpd} {cs : List (Cmd String ServerOpts)}
    {ds : List ConfigCmd} :
    Ntpd.Run n (cs.map ConfigCmd.association ++ ds) n' ↔
      ∃ servers, Keyed.Run n.servers cs servers ∧ Ntpd.Run { n with servers := servers } ds n' := by
  induction cs generalizing n with
  | nil =>
    constructor
    · intro h
      exact ⟨n.servers, Keyed.Run.nil _, h⟩
    · intro h
      obtain ⟨servers, h₁, h₂⟩ := h
      rw [Keyed.run_nil_iff.mp h₁] at h₂
      exact h₂
  | cons c cs ih =>
    constructor
    · intro h
      cases h with
      | cons hstep hrest =>
        cases hstep with
        | association hc =>
          obtain ⟨servers, h₁, h₂⟩ := ih.mp hrest
          exact ⟨servers, Keyed.Run.cons hc h₁, h₂⟩
    · intro h
      obtain ⟨servers, h₁, h₂⟩ := h
      cases h₁ with
      | cons hstep hrest =>
        exact Run.cons (Step.association hstep) (ih.mpr ⟨servers, hrest, h₂⟩)

/-- Every list of commands can be run. -/
theorem Ntpd.exists_run (n : Ntpd) (cs : List ConfigCmd) : ∃ n', Ntpd.Run n cs n' := by
  induction cs generalizing n with
  | nil => exact ⟨n, Run.nil n⟩
  | cons c cs ih =>
    obtain ⟨n₁, hstep⟩ : ∃ n₁, n.Step c n₁ := by
      cases c with
      | association c =>
        cases c with
        | put a o => exact ⟨_, Step.association (Keyed.Step.put a o)⟩
        | drop a => exact ⟨_, Step.association (Keyed.Step.drop a)⟩
      | trustedkey keys => exact ⟨_, Step.trustedkey keys⟩
      | unconfigTrustedkey keys => exact ⟨_, Step.unconfigTrustedkey keys⟩
    obtain ⟨n', hrun⟩ := ih n₁
    exact ⟨n', Run.cons hstep hrun⟩

end OpsNtpd.Daemon
