import Mathlib.Data.List.Basic

/-!
# The export rule of a client

`client_rule_match` looks for the rule of an export that applies to a client. What it asks the
libraries of the host is a parameter (`Host`). The scan is one over an arbitrary predicate: what a
rule does to the best one so far (`Scanned.skip`, `Scanned.take`) gives what the whole list does.
What a rule is meant to say, and to whom, is stated of its text alone (`Applies`).
-/

namespace Reffs.Export

open List BitVec

inductive Peer where
  | inet (addr : BitVec 32)
  | inet6 (addr : BitVec 128)
  | other

/-- `inet_pton` for the two families, `atoi`, the name that a peer resolves to, and `fnmatch`. -/
structure Host where
  pton : List Char → Option (BitVec 32)
  pton6 : List Char → Option (BitVec 128)
  atoi : List Char → Int
  resolve : Peer → Option (List Char)
  fnmatch : List Char → List Char → Bool

/-- `sb_client_rule`, of which only the specification is looked at. -/
structure Rule where
  scrMatch : List Char

/-- `spec_priority`: a star, a wildcard, a network, a host. -/
def specPriority (spec : List Char) : Nat :=
  if spec = ['*'] then 4 else if spec.head? = some '*' then 3 else if '/' ∈ spec then 2 else 1

/-! ## Networks -/

def mask (n : Nat) : BitVec 32 := if n = 0 then 0 else ~~~((1 <<< (32 - n)) - 1)

def sameNet (n : Nat) (a b : BitVec 32) : Bool := a &&& mask n == b &&& mask n

def octet (a : BitVec 128) (i : Nat) : BitVec 8 := a.extractLsb' (120 - 8 * i) 8

/-- The full bytes are equal, and so is what the mask leaves of the next one. -/
def sameNet6 (n : Nat) (a b : BitVec 128) : Bool :=
  (range (n / 8)).all (fun i => octet a i == octet b i) && (n % 8 == 0 ||
    octet a (n / 8) &&& 0xff#8 <<< (8 - n % 8) == octet b (n / 8) &&& 0xff#8 <<< (8 - n % 8))

/-- The first `n` bits agree. -/
def Agree {w : Nat} (n : Nat) (a b : BitVec w) : Prop := ∀ j < n, a.getMsbD j = b.getMsbD j

variable {w n : Nat}

lemma and_mask_eq {a b : BitVec w} (hn : n ≤ w) :
    a &&& allOnes w <<< (w - n) = b &&& allOnes w <<< (w - n) ↔ Agree n a b := by
  constructor
  · intro h j hj
    have hbit := congrArg (·.getMsbD j) h
    have hin : j + (w - n) < w := by omega
    simpa [hin] using hbit
  · refine fun h => eq_of_getMsbD_eq fun j hj => ?_
    by_cases hlt : j < n
    · rw [getMsbD_and, getMsbD_and, h j hlt]
    · have hout : ¬ j + (w - n) < w := by omega
      simp [hout]

lemma sameNet_iff (hn : n ≤ 32) (a b : BitVec 32) : sameNet n a b ↔ Agree n a b := by
  have hmask : ∀ n : Fin 33, mask n = allOnes 32 <<< (32 - n.val) := by decide
  have hmask : mask n = _ := hmask ⟨n, by omega⟩
  rw [sameNet, beq_iff_eq, hmask, and_mask_eq hn]

lemma octet_getMsbD (a : BitVec 128) {i j : Nat} (hj : j < 8) (hi : i < 16) :
    (octet a i).getMsbD j = a.getMsbD (8 * i + j) := by
  simp [octet, getMsbD]
  grind

lemma sameNet6_iff (hn : n ≤ 128) (a b : BitVec 128) : sameNet6 n a b ↔ Agree n a b := by
  have hfull : 0xff#8 = allOnes 8 := rfl
  rw [sameNet6, Bool.and_eq_true, all_eq_true, Bool.or_eq_true, beq_iff_eq, beq_iff_eq, hfull,
    and_mask_eq (by omega)]
  constructor
  · rintro ⟨hbytes, hrest⟩ j hj
    have hlt : j % 8 < 8 := by omega
    rw [← Nat.div_add_mod j 8, ← octet_getMsbD a hlt (by omega), ← octet_getMsbD b hlt (by omega)]
    by_cases hin : j / 8 < n / 8
    · rw [beq_iff_eq.mp (hbytes _ (mem_range.mpr hin))]
    · rw [show j / 8 = n / 8 by omega]
      exact hrest.resolve_left (by omega) _ (by omega)
  · refine fun h => ⟨fun i hi => ?_, ?_⟩
    · have hi := mem_range.mp hi
      refine beq_iff_eq.mpr (eq_of_getMsbD_eq fun j hj => ?_)
      rw [octet_getMsbD a hj (by omega), octet_getMsbD b hj (by omega), h _ (by omega)]
    · refine Decidable.or_iff_not_imp_left.mpr fun hpos j hj => ?_
      rw [octet_getMsbD a (by omega) (by omega), octet_getMsbD b (by omega) (by omega),
        h _ (by omega)]

/-! ## Matching -/

section

variable (h : Host) (spec : List Char)

def matchHost : Peer → Bool
  | .inet a => h.pton spec == some a
  | .inet6 a => h.pton6 spec == some a
  | .other => false

/-- The address and the length in a specification, which is cut to the size of `addr_buf`. -/
def cidr : Option (List Char × Int) :=
  match (spec.take 49).dropWhile (· ≠ '/') with
  | [] => none
  | _ :: digits => some ((spec.take 49).takeWhile (· ≠ '/'), h.atoi digits)

/-- `match_cidr` for one family. -/
def inNet (pton : List Char → Option (BitVec w)) (same : Nat → BitVec w → BitVec w → Bool)
    (a : BitVec w) : Bool :=
  (cidr h spec).any fun (text, len) => (pton text).any fun net =>
    !(len < 0 || w < len) && same len.toNat a net

def matchCidr : Peer → Bool
  | .inet a => inNet h spec h.pton sameNet a
  | .inet6 a => inNet h spec h.pton6 sameNet6 a
  | .other => false

def matchHostnameWildcard : Peer → Bool
  | .other => false
  | peer => (h.resolve peer).any (h.fnmatch spec)

/-- The address is of the family of the network, and agrees with it on the length given. -/
def Within (pton : List Char → Option (BitVec w)) (a : BitVec w) : Prop :=
  ∃ text net n, cidr h spec = some (text, Int.ofNat n) ∧ pton text = some net ∧ n ≤ w ∧
    Agree n a net

variable {h spec}

lemma inNet_iff {pton : List Char → Option (BitVec w)} {same : Nat → BitVec w → BitVec w → Bool}
    (hsame : ∀ {n}, n ≤ w → ∀ a b, same n a b ↔ Agree n a b) (a : BitVec w) :
    inNet h spec pton same a ↔ Within h spec pton a := by
  constructor
  · intro hin
    obtain ⟨⟨text, len⟩, hcidr, hin⟩ := Option.any_eq_true .. |>.mp hin
    obtain ⟨net, hnet, hin⟩ := Option.any_eq_true .. |>.mp hin
    simp only [Bool.and_eq_true, Bool.not_eq_true', Bool.or_eq_false_iff,
      decide_eq_false_iff_not] at hin
    obtain ⟨n, rfl⟩ := Int.eq_ofNat_of_zero_le (show 0 ≤ len by omega)
    have hn : n ≤ w := by omega
    exact ⟨text, net, n, hcidr, hnet, hn, (hsame hn a net).mp hin.2⟩
  · rintro ⟨text, net, n, hcidr, hnet, hn, hagree⟩
    simp [inNet, hcidr, hnet, (hsame hn a net).mpr hagree]
    omega

end

/-! ## The loop -/

def Rule.prio (r : Rule) : Nat := specPriority r.scrMatch

/-- The `switch` of `client_rule_match`. -/
def matched (h : Host) (peer : Peer) (r : Rule) : Bool :=
  match r.prio with
  | 1 => matchHost h r.scrMatch peer
  | 2 => matchCidr h r.scrMatch peer
  | 3 => matchHostnameWildcard h r.scrMatch peer
  | _ => true

section

variable (m : Rule → Bool)

def scan : List Rule → Option Rule → Nat → Option Rule
  | [], best, _ => best
  | r :: rules, best, bestPrio =>
    if bestPrio ≤ r.prio then scan rules best bestPrio
    else if m r then if r.prio = 1 then some r else scan rules (some r) r.prio
    else scan rules best bestPrio

/-- `r` is the first of the most specific class among the rules that match. -/
def First (rules : List Rule) (r : Rule) : Prop :=
  ∃ before after, rules = before ++ r :: after ∧ m r ∧
    (∀ x ∈ before, m x → r.prio < x.prio) ∧ ∀ x ∈ after, m x → r.prio ≤ x.prio

/-- What the loop makes of `best`. -/
def Scanned (rules : List Rule) (best : Option Rule) (bestPrio : Nat) (out : Option Rule) : Prop :=
  (out = best ∧ ∀ x ∈ rules, m x → bestPrio ≤ x.prio) ∨
    ∃ r, out = some r ∧ r.prio < bestPrio ∧ First m rules r

variable {m} {rules : List Rule} {best out : Option Rule} {bestPrio : Nat} {r x : Rule}

lemma prio_bounds (r : Rule) : 1 ≤ r.prio ∧ r.prio < 5 := by grind [Rule.prio, specPriority]

lemma First.cons (hr : First m rules r) (hx : m x → r.prio < x.prio) : First m (x :: rules) r := by
  obtain ⟨before, after, rfl, hm, hbefore, hafter⟩ := hr
  exact ⟨x :: before, after, rfl, hm, forall_mem_cons.mpr ⟨hx, hbefore⟩, hafter⟩

lemma Scanned.skip (hs : Scanned m rules best bestPrio out) (hx : m x → bestPrio ≤ x.prio) :
    Scanned m (x :: rules) best bestPrio out := by
  rcases hs with ⟨heq, hrest⟩ | ⟨r, heq, hlt, hr⟩
  · exact .inl ⟨heq, forall_mem_cons.mpr ⟨hx, hrest⟩⟩
  · exact .inr ⟨r, heq, hlt, hr.cons fun hm => Nat.lt_of_lt_of_le hlt (hx hm)⟩

lemma Scanned.take (hs : Scanned m rules (some x) x.prio out) (hx : m x) (hlt : x.prio < bestPrio) :
    Scanned m (x :: rules) best bestPrio out := by
  rcases hs with ⟨heq, hrest⟩ | ⟨r, heq, hlt', hr⟩
  · exact .inr ⟨x, heq, hlt, [], rules, rfl, hx, nofun, hrest⟩
  · exact .inr ⟨r, heq, Nat.lt_trans hlt' hlt, hr.cons fun _ => hlt'⟩

lemma scan_scanned (rules : List Rule) (best : Option Rule) (bestPrio : Nat) :
    Scanned m rules best bestPrio (scan m rules best bestPrio) := by
  induction rules generalizing best bestPrio with
  | nil => exact .inl ⟨rfl, nofun⟩
  | cons x rules ih =>
    unfold scan
    split
    · next hle => exact (ih ..).skip fun _ => hle
    split
    · next hgt hx =>
      split
      -- no class is more specific than that of a host
      · next hone => exact .take (.inl ⟨rfl, fun y _ _ => hone ▸ (prio_bounds y).1⟩) hx (by omega)
      · exact (ih ..).take hx (by omega)
    · next hx => exact (ih ..).skip fun hm => absurd hm hx

end

def clientRuleMatch (h : Host) (peer : Peer) (rules : List Rule) : Option Rule :=
  scan (matched h peer) rules none 5

/-! ## What a rule says -/

inductive Class where
  | host | net | wildcard | star

def Class.rank : Class → Nat
  | host => 1
  | net => 2
  | wildcard => 3
  | star => 4

/-- A specification is of a class, and applies to a peer: a star to every one, a pattern with a star
in front to those whose name it matches, a network to the addresses of its family that agree with it
on the length given, and any other text to the one address that it spells. -/
inductive Applies (h : Host) (spec : List Char) : Peer → Class → Prop where
  | star (peer : Peer) (hspec : spec = ['*']) : Applies h spec peer .star
  | wildcard (peer : Peer) (tail name : List Char) (hspec : spec = '*' :: tail) (htail : tail ≠ [])
      (hpeer : peer ≠ .other) (hname : h.resolve peer = some name) (hmatch : h.fnmatch spec name) :
      Applies h spec peer .wildcard
  | net (a : BitVec 32) (hstar : spec.head? ≠ some '*') (hslash : '/' ∈ spec)
      (hin : Within h spec h.pton a) : Applies h spec (.inet a) .net
  | net6 (a : BitVec 128) (hstar : spec.head? ≠ some '*') (hslash : '/' ∈ spec)
      (hin : Within h spec h.pton6 a) : Applies h spec (.inet6 a) .net
  | host (a : BitVec 32) (hstar : spec.head? ≠ some '*') (hslash : '/' ∉ spec)
      (haddr : h.pton spec = some a) : Applies h spec (.inet a) .host
  | host6 (a : BitVec 128) (hstar : spec.head? ≠ some '*') (hslash : '/' ∉ spec)
      (haddr : h.pton6 spec = some a) : Applies h spec (.inet6 a) .host

section

variable {h : Host} {peer : Peer} {r : Rule} {c : Class}

lemma matchCidr_inet {spec : List Char} {a : BitVec 32} :
    matchCidr h spec (.inet a) ↔ Within h spec h.pton a := inNet_iff sameNet_iff a

lemma matchCidr_inet6 {spec : List Char} {a : BitVec 128} :
    matchCidr h spec (.inet6 a) ↔ Within h spec h.pton6 a := inNet_iff sameNet6_iff a

lemma Applies.prio (ha : Applies h r.scrMatch peer c) : r.prio = c.rank := by
  cases ha <;> grind [Rule.prio, specPriority, Class.rank]

lemma Applies.matched (ha : Applies h r.scrMatch peer c) : matched h peer r := by
  rw [Export.matched, ha.prio]
  cases ha with
  | star => rfl
  | wildcard _ tail name hspec htail hpeer hname hmatch =>
    cases peer <;> simp_all [Class.rank, matchHostnameWildcard]
  | net a _ _ hin => exact matchCidr_inet.mpr hin
  | net6 a _ _ hin => exact matchCidr_inet6.mpr hin
  | host a _ _ haddr => exact beq_iff_eq.mpr haddr
  | host6 a _ _ haddr => exact beq_iff_eq.mpr haddr

lemma applies_of_matched (hm : matched h peer r) : ∃ c, Applies h r.scrMatch peer c := by
  unfold matched Rule.prio specPriority at hm
  by_cases hstar : r.scrMatch = ['*']
  · exact ⟨_, .star peer hstar⟩
  rw [if_neg hstar] at hm
  by_cases hwild : r.scrMatch.head? = some '*'
  · rw [if_pos hwild] at hm
    obtain ⟨tail, htail⟩ := head?_eq_some_iff.mp hwild
    have hne : tail ≠ [] := fun hnil => hstar (hnil ▸ htail)
    cases peer with
    | other => cases hm
    | _ =>
      obtain ⟨name, hname, hmatch⟩ := Option.any_eq_true .. |>.mp hm
      exact ⟨_, .wildcard _ tail name htail hne nofun hname hmatch⟩
  rw [if_neg hwild] at hm
  by_cases hslash : '/' ∈ r.scrMatch
  · rw [if_pos hslash] at hm
    cases peer with
    | other => cases hm
    | inet a => exact ⟨_, .net a hwild hslash (matchCidr_inet.mp hm)⟩
    | inet6 a => exact ⟨_, .net6 a hwild hslash (matchCidr_inet6.mp hm)⟩
  · rw [if_neg hslash] at hm
    cases peer with
    | other => cases hm
    | inet a => exact ⟨_, .host a hwild hslash (beq_iff_eq.mp hm)⟩
    | inet6 a => exact ⟨_, .host6 a hwild hslash (beq_iff_eq.mp hm)⟩

end

/-- **The rule of a client** is the first of the most specific class among those that apply to it,
and there is none only if none applies; `match_cidr` accepts the addresses that agree with the
network on its length. -/
theorem clientRuleMatch_spec (h : Host) :
    (∀ peer rules, match clientRuleMatch h peer rules with
      | some r => ∃ before after c, rules = before ++ r :: after ∧ Applies h r.scrMatch peer c ∧
          (∀ x ∈ before, ∀ d, Applies h x.scrMatch peer d → c.rank < d.rank) ∧
          ∀ x ∈ after, ∀ d, Applies h x.scrMatch peer d → c.rank ≤ d.rank
      | none => ∀ r ∈ rules, ∀ c, ¬ Applies h r.scrMatch peer c) ∧
    (∀ spec a, matchCidr h spec (.inet a) = true ↔ Within h spec h.pton a) ∧
    ∀ spec a, matchCidr h spec (.inet6 a) = true ↔ Within h spec h.pton6 a := by
  refine ⟨fun peer rules => ?_, fun _ _ => matchCidr_inet, fun _ _ => matchCidr_inet6⟩
  unfold clientRuleMatch
  rcases scan_scanned rules none 5 with ⟨heq, hnone⟩ | ⟨r, heq, -, before, after, hsplit, hm,
    hbefore, hafter⟩
  · rw [heq]
    intro r hr c hc
    have hlt := (prio_bounds r).2
    exact absurd (hnone r hr hc.matched) (by omega)
  · rw [heq]
    obtain ⟨c, hc⟩ := applies_of_matched hm
    refine ⟨before, after, c, hsplit, hc, fun x hx d hd => ?_, fun x hx d hd => ?_⟩
    · rw [← hc.prio, ← hd.prio]
      exact hbefore x hx hd.matched
    · rw [← hc.prio, ← hd.prio]
      exact hafter x hx hd.matched

end Reffs.Export
