import Mathlib.Algebra.Order.BigOperators.Group.List
import Mathlib.Algebra.Order.Group.Nat
import Mathlib.Data.List.Perm.Subperm
import TypedSql.Connection.Url
import TypedSql.Proofs.Connection.Pairs
import TypedSql.Proofs.Settings.Namespace
import TypedSql.Proofs.Text.Numeral
import TypedSql.Proofs.Text.Utf8

/-!
# Connection strings that are made of parts

The parts of a connection are written into a row of pairs as they are. The row says what the parts
say exactly when all of them are plain (`ConnectionSettings.ofText?_text_eq_some_iff`). A part
that is empty or holds a blank, a quote in front or a backslash is read as something else, or as
further settings, or not at all.
-/

namespace TypedSql

theorem Host.ofText_injective {s t : String} (h : Host.ofText s = Host.ofText t) : s = t := by
  rw [ofText, ofText] at h
  split at h <;> split at h
  · exact Bytes.ofText_injective (socket.inj h)
  · cases h
  · cases h
  · exact network.inj h

namespace ConnectionTarget

variable {t t' : ConnectionTarget} {key value : String} {ps : List (String × String)}

/-- The settings that are kept once, with their values as bytes. -/
def named (t : ConnectionTarget) : List (String × Bytes) :=
  (t.database.map fun name => ("dbname", .ofText name)).toList ++
    (t.user.map fun name => ("user", .ofText name)).toList ++
    (t.password.map fun bytes => ("password", bytes)).toList

theorem setAll?_cons (t : ConnectionTarget) (p : String × String) (ps : List (String × String)) :
    t.setAll? (p :: ps) = (t.set? p.1 p.2).bind (setAll? · ps) :=
  rfl

/-- A setting leaves the hosts that are there, and the value of a key comes from its own setting. -/
theorem hosts_named_of_set? (h : t.set? key value = some t') :
    t.hosts <+: t'.hosts ∧ ∀ p ∈ t'.named, p ∈ t.named ∨ p = (key, .ofText value) := by
  unfold set? at h
  split at h
  · obtain rfl := Option.some.inj h
    exact ⟨List.prefix_rfl, by grind [named]⟩
  · obtain rfl := Option.some.inj h
    exact ⟨List.prefix_rfl, by grind [named]⟩
  · obtain rfl := Option.some.inj h
    exact ⟨List.prefix_rfl, by grind [named]⟩
  · obtain rfl := Option.some.inj h
    exact ⟨List.prefix_append _ _, fun p hp => .inl hp⟩
  · obtain ⟨ports, -, rfl⟩ := Option.map_eq_some_iff.mp h
    exact ⟨List.prefix_rfl, fun p hp => .inl hp⟩
  · split at h
    · obtain rfl := Option.some.inj h
      exact ⟨List.prefix_rfl, fun p hp => .inl hp⟩
    · cases h

theorem hosts_named_of_setAll? (h : t.setAll? ps = some t') :
    t.hosts <+: t'.hosts ∧ ∀ p ∈ t'.named, p ∈ t.named ∨ ∃ q ∈ ps, p = (q.1, .ofText q.2) := by
  induction ps generalizing t with
  | nil =>
    obtain rfl := Option.some.inj h
    exact ⟨List.prefix_rfl, fun p hp => .inl hp⟩
  | cons q ps ih =>
    obtain ⟨mid, hq, hps⟩ := Option.bind_eq_some_iff.mp h
    obtain ⟨hhosts, hnamed⟩ := hosts_named_of_set? hq
    obtain ⟨hhosts', hnamed'⟩ := ih hps
    refine ⟨hhosts.trans hhosts', fun p hp => ?_⟩
    obtain hp | ⟨q', hq', rfl⟩ := hnamed' p hp
    · obtain hp | rfl := hnamed p hp
      · exact .inl hp
      · exact .inr ⟨q, List.mem_cons_self, rfl⟩
    · exact .inr ⟨q', List.mem_cons_of_mem _ hq', rfl⟩

end ConnectionTarget

namespace ConnectionSettings

open ConnectionTarget

variable {s : ConnectionSettings}

/-- The parts that are given besides host and port, under their keys. -/
def given (s : ConnectionSettings) : List (String × String) :=
  (s.database.map fun name => ("dbname", name)).toList ++
    (s.user.map fun name => ("user", name)).toList ++
    (s.password.map fun password => ("password", password)).toList

/-- All parts under their keys. -/
def pairs (s : ConnectionSettings) : List (String × String) :=
  ("host", s.host.getD "localhost") :: ("port", toString (s.port.getD defaultPort).toNat) :: s.given

/-- What the parts say. The host may be a list of hosts with commas between them. -/
def target (s : ConnectionSettings) : ConnectionTarget :=
  { user := s.user
    password := s.password.map .ofText
    database := s.database
    hosts := (Text.pieces ',' (s.host.getD "localhost").toList).map fun host =>
      Host.ofText (String.ofList host)
    ports := [s.port.getD defaultPort]
    others := [] }

/-- A pair as it is written. -/
def pairText (p : String × String) : String := s!"{p.1}={p.2}"

theorem toList_pairText (p : String × String) :
    (pairText p).toList = p.1.toList ++ '=' :: p.2.toList := by
  have h : pairText p = p.1 ++ "=" ++ p.2 := rfl
  simp [h]

theorem cons_intercalate (p : String × String) (ps : List (String × String)) :
    ' ' :: (" ".intercalate ((p :: ps).map pairText)).toList = row (p :: ps) := by
  rw [String.toList_intercalate, List.map_map]
  induction ps generalizing p with
  | nil => simp [row, toList_pairText]
  | cons q ps ih =>
    rw [List.map_cons, List.map_cons, List.intercalate_cons_cons, ← List.map_cons]
    rw [row_cons, ← ih q]
    simp [toList_pairText]

theorem cons_text (h : s.url = none) : ' ' :: s.text.toList = row s.pairs := by
  have ht : s.text = " ".intercalate (s.pairs.map pairText) := by
    rw [text, h]
    simp only [pairs, given, List.map_cons, List.map_append, Option.toList_map, List.map_map]
    rfl
  rw [ht, pairs, cons_intercalate]

/-- Every part that is given is plain. -/
def IsPlain (s : ConnectionSettings) : Prop :=
  ∀ part ∈ [s.host, s.database, s.user, s.password], ∀ value ∈ part,
    ConnectionTarget.IsPlain value.toList

instance : DecidablePred IsPlain := fun s =>
  inferInstanceAs (Decidable (∀ part ∈ [s.host, s.database, s.user, s.password], ∀ value ∈ part,
    ConnectionTarget.IsPlain value.toList))

theorem mem_given {key value : String} : (key, value) ∈ s.given ↔
    key = "dbname" ∧ s.database = some value ∨ key = "user" ∧ s.user = some value ∨
      key = "password" ∧ s.password = some value := by
  simp [given]
  grind

theorem nodup_given (s : ConnectionSettings) : s.given.Nodup := by
  cases hd : s.database <;> cases hu : s.user <;> cases hp : s.password <;> simp [given, hd, hu, hp]

theorem isPlain_iff : s.IsPlain ↔ ConnectionTarget.IsPlain (s.host.getD "localhost").toList ∧
    ∀ p ∈ s.given, ConnectionTarget.IsPlain p.2.toList := by
  have hhost : (∀ value ∈ s.host, ConnectionTarget.IsPlain value.toList) ↔
      ConnectionTarget.IsPlain (s.host.getD "localhost").toList := by
    cases s.host with
    | none =>
      have hd : ConnectionTarget.IsPlain "localhost".toList := by decide
      exact iff_of_true (by simp) hd
    | some host => simp
  have hgiven : (∀ part ∈ [s.database, s.user, s.password], ∀ value ∈ part,
      ConnectionTarget.IsPlain value.toList) ↔
      ∀ p ∈ s.given, ConnectionTarget.IsPlain p.2.toList := by
    simp [given, or_imp, forall_and]
  rw [IsPlain, List.forall_mem_cons, hhost, hgiven]

theorem isPlain_port (n : Nat) : ConnectionTarget.IsPlain (toString n).toList := by
  rw [Text.toList_toString]
  have hword : ∀ c ∈ Nat.toDigits 10 n, Text.isWord c = true := fun c hc =>
    Text.isWord_of_isDigit (Text.isDigit_of_mem_toDigits hc)
  refine ⟨Text.toDigits_ne_nil n, fun h => ?_, fun c hc => ?_, ?_⟩
  · exact absurd (hword _ (List.mem_of_mem_head? h)) (by decide)
  · exact Text.isBlank_of_isWord (hword c hc)
  · rintro c hc rfl
    exact absurd (hword _ hc) (by decide)

theorem isKey_of_mem_pairs {p : String × String} (hp : p ∈ s.pairs) :
    p.1.toList ≠ [] ∧ ∀ c ∈ p.1.toList, isKeyChar c = true := by
  have hkey : p.1 ∈ ["host", "port", "dbname", "user", "password"] := by
    obtain ⟨key, value⟩ := p
    simp only [pairs, List.mem_cons, mem_given] at hp
    grind
  have hall : ∀ key ∈ ["host", "port", "dbname", "user", "password"],
      key.toList ≠ [] ∧ key.toList.all isKeyChar = true := by
    decide
  exact (hall p.1 hkey).imp_right List.all_eq_true.mp

theorem pieces_port (n : Nat) : Text.pieces ',' (Nat.toDigits 10 n) = [Nat.toDigits 10 n] := by
  refine Text.pieces_of_not_mem fun h => ?_
  exact absurd (Text.isDigit_of_mem_toDigits h) (by decide)

theorem port?_toDigits (port : UInt16) :
    port? (Nat.toDigits 10 port.toNat) = some port := by
  have hle : port.toNat ≤ 65535 := Nat.le_of_lt_succ port.toNat_lt
  rw [port?, if_neg (by simp), Text.natural?_toDigits hle, Option.map_some,
    UInt16.ofNat_toNat]

theorem set?_port (t : ConnectionTarget) (port : UInt16) :
    t.set? "port" (toString port.toNat) = some { t with ports := t.ports ++ [port] } := by
  simp [ConnectionTarget.set?, pieces_port, port?_toDigits]

theorem setAll?_pairs (s : ConnectionSettings) :
    ConnectionTarget.empty.setAll? s.pairs = some s.target := by
  let hosts := (Text.pieces ',' (s.host.getD "localhost").toList).map fun host =>
    Host.ofText (String.ofList host)
  have hhost : ConnectionTarget.empty.set? "host" (s.host.getD "localhost") =
      some { ConnectionTarget.empty with hosts } := rfl
  have hpairs : ConnectionTarget.empty.setAll? s.pairs = ConnectionTarget.setAll?
      { ConnectionTarget.empty with hosts, ports := [s.port.getD defaultPort] } s.given := by
    rw [pairs, setAll?_cons, hhost, Option.bind_some, setAll?_cons,
      set?_port, Option.bind_some]
    rfl
  rw [hpairs, given, target]
  cases s.database <;> cases s.user <;> cases s.password <;> rfl

/-- A connection string of parts is read as a row of pairs. -/
theorem ofText?_text (h : s.url = none) : ∃ fuel, s.pairs.length ≤ fuel ∧
    ConnectionTarget.ofText? s.text =
      (pairsWithin? fuel (row s.pairs)).bind
        ConnectionTarget.empty.setAll? := by
  have hrow := cons_text h
  refine ⟨s.text.toList.length, ?_, ?_⟩
  · have hlen := congrArg List.length hrow
    rw [List.length_cons, length_row] at hlen
    have hle := length_le_weight s.pairs
    have hpos : 1 ≤ s.pairs.length := Nat.succ_pos _
    omega
  · have hscheme : afterScheme? s.text.toList = none := by
      rw [pairs, row_cons] at hrow
      rw [(List.cons.inj hrow).2, show "host".toList = ['h', 'o', 's', 't'] by decide]
      rfl
    rw [ConnectionTarget.ofText?, hscheme, ← hrow, pairsWithin?_blank]
    exact ofPairsWithin?_eq _ _ _

/-- Hosts that come first among the hosts that are meant are read from the same characters. -/
theorem hostText_eq_of_prefix {host host' : List Char}
    (h : (Text.pieces ',' host).map (fun host => Host.ofText (String.ofList host)) <+:
      (Text.pieces ',' host').map fun host => Host.ofText (String.ofList host)) :
    host = host' ∨ ∃ more, host' = host ++ ',' :: more := by
  refine Text.eq_of_pieces_prefix ((List.prefix_map_iff_of_injective ?_).mp h)
  exact fun a b he => String.ofList_injective (Host.ofText_injective he)

/-- A plain value is read up to the next pair. -/
theorem pairsWithin?_plain {fuel : Nat} {p : String × String} {ps : List (String × String)}
    (hk : p.1.toList ≠ [] ∧ ∀ c ∈ p.1.toList, isKeyChar c = true)
    (hv : ConnectionTarget.IsPlain p.2.toList) :
    pairsWithin? (fuel + 1) (row (p :: ps)) = (pairsWithin? fuel (row ps)).map (p :: ·) := by
  rw [pairsWithin?_row_cons p ps hk, trimStart_append hv,
    value?_append hv (isBlank_of_head?_row ps), Option.bind_some, String.ofList_toList]

/-- The host is plain when what is read is what was meant. -/
theorem isPlain_host {fuel : Nat} {ps : List (String × String)}
    (hps : pairsWithin? (fuel + 1) (row s.pairs) = some ps)
    (hset : ConnectionTarget.empty.setAll? ps = some s.target) :
    ConnectionTarget.IsPlain (s.host.getD "localhost").toList := by
  have hkey := isKey_of_mem_pairs (s := s) List.mem_cons_self
  rw [pairs, pairsWithin?_row_cons _ _ hkey] at hps
  obtain ⟨⟨host, rest⟩, hvalue, hps⟩ := Option.bind_eq_some_iff.mp hps
  obtain ⟨ps, -, rfl⟩ := Option.map_eq_some_iff.mp hps
  rw [setAll?_cons] at hset
  obtain ⟨t, ht, hset⟩ := Option.bind_eq_some_iff.mp hset
  obtain rfl := Option.some.inj ht
  have hhosts := (hosts_named_of_setAll? hset).1
  simp only [String.toList_ofList] at hhosts
  obtain rfl | ⟨more, hmore⟩ := hostText_eq_of_prefix hhosts
  · rw [row_cons, show "port".toList = ['p', 'o', 'r', 't'] by decide] at hvalue
    have hb : isSpecial ' ' = true := by decide
    have hp : isSpecial 'p' = false := by decide
    exact (isPlain_of_value? (by simp [runLength, hb, hp]) (by simp) hvalue).1
  · -- More hosts are meant than are read, so a comma would end a value.
    dsimp only at hvalue
    rw [hmore, List.append_assoc] at hvalue
    have hcomma : isSpecial ',' = false := by decide
    obtain ⟨-, hblank⟩ := isPlain_of_value? (by simp [runLength, hcomma]) (by simp) hvalue
    exact absurd (hblank ',' rfl) (by decide)

/-- Behind a plain host and the port there are the other parts. -/
theorem exists_setAll?_of_plain_host {fuel : Nat} {ps : List (String × String)}
    (hhost : ConnectionTarget.IsPlain (s.host.getD "localhost").toList)
    (hps : pairsWithin? (fuel + 2) (row s.pairs) = some ps)
    (hset : ConnectionTarget.empty.setAll? ps = some s.target) :
    ∃ ps' t, pairsWithin? fuel (row s.given) = some ps' ∧
      ConnectionTarget.setAll? t ps' = some s.target ∧ t.named = [] := by
  have hkeys : ∀ p ∈ s.pairs, _ := fun p hp => isKey_of_mem_pairs hp
  rw [pairs, List.forall_mem_cons, List.forall_mem_cons] at hkeys
  rw [pairs, pairsWithin?_plain hkeys.1 hhost, pairsWithin?_plain hkeys.2.1 (isPlain_port _)] at hps
  obtain ⟨front, hfront, rfl⟩ := Option.map_eq_some_iff.mp hps
  obtain ⟨ps', hps', rfl⟩ := Option.map_eq_some_iff.mp hfront
  rw [setAll?_cons] at hset
  obtain ⟨t, ht, hset⟩ := Option.bind_eq_some_iff.mp hset
  rw [setAll?_cons, set?_port, Option.bind_some] at hset
  obtain rfl := Option.some.inj ht
  exact ⟨ps', _, hps', hset, rfl⟩

theorem named_target (s : ConnectionSettings) :
    s.target.named = s.given.map fun p => (p.1, .ofText p.2) := by
  cases hd : s.database <;> cases hu : s.user <;> cases hp : s.password <;>
    simp [ConnectionTarget.named, target, given, hd, hu, hp]

/-- Parts that are read behind the port from a row of them are plain. -/
theorem isPlain_of_mem_given {t : ConnectionTarget} {fuel : Nat} {ps : List (String × String)}
    (hps : pairsWithin? fuel (row s.given) = some ps)
    (ht : t.setAll? ps = some s.target) (hn : t.named = []) :
    ∀ p ∈ s.given, ConnectionTarget.IsPlain p.2.toList := by
  have hsub : s.given ⊆ ps := by
    intro p hp
    have hmem : (p.1, Bytes.ofText p.2) ∈ s.target.named := by
      rw [named_target]
      exact List.mem_map_of_mem hp
    obtain hnil | ⟨q, hq, he⟩ := (hosts_named_of_setAll? ht).2 _ hmem
    · rw [hn] at hnil
      cases hnil
    · obtain ⟨hkey, hvalue⟩ := Prod.mk.inj he
      obtain rfl : p = q := Prod.ext hkey (Bytes.ofText_injective hvalue)
      exact hq
  -- All parts are among the pairs, so the pairs are as long as the row.
  have hweight : weight s.given ≤ weight ps := by
    obtain ⟨l, hl, hs⟩ := List.subperm_of_subset s.nodup_given hsub
    calc weight s.given
      _ = weight l := (weight_eq_of_perm hl).symm
      _ ≤ weight ps := weight_le_of_sublist hs
  have hlead : lead (row s.given) = 0 := lead_eq_zero (isBlank_of_head?_row _)
  have hplain := (weight_le hps).2 (by
    rw [hlead, length_row]
    exact hweight)
  exact fun p hp => hplain p (hsub hp)

/-- The parts are read from the connection string as they were given exactly when all of them are
plain. -/
theorem ofText?_text_eq_some_iff (s : ConnectionSettings) (h : s.url = none) :
    ConnectionTarget.ofText? s.text = some s.target ↔ s.IsPlain := by
  obtain ⟨fuel, hfuel, htext⟩ := ofText?_text h
  rw [htext, isPlain_iff]
  constructor
  · intro hread
    obtain ⟨ps, hps, hset⟩ := Option.bind_eq_some_iff.mp hread
    obtain ⟨fuel, rfl⟩ : ∃ n, fuel = n + 2 :=
      Nat.exists_eq_add_of_le' (le_trans (by simp [pairs]) hfuel)
    have hhost := isPlain_host hps hset
    obtain ⟨ps, t, hps, hset, hnamed⟩ := exists_setAll?_of_plain_host hhost hps hset
    exact ⟨hhost, isPlain_of_mem_given hps hset hnamed⟩
  · rintro ⟨hhost, hgiven⟩
    have hplain : ∀ p ∈ s.pairs, ConnectionTarget.IsPlain p.2.toList :=
      List.forall_mem_cons.mpr ⟨hhost, List.forall_mem_cons.mpr ⟨isPlain_port _, hgiven⟩⟩
    rw [pairsWithin?_row (fun p hp => isKey_of_mem_pairs hp) hplain hfuel,
      Option.bind_some, setAll?_pairs]

/-- Two hosts, a port, a user and a password with an equals sign in it. -/
theorem ofText?_text_replicas :
    let s : ConnectionSettings :=
      { unset with
        host := some "a.test,/run/b", port := some 6543
        user := some "app", password := some "x=y" }
    s.url = none ∧ ConnectionTarget.ofText? s.text = some s.target :=
  ⟨rfl, (ofText?_text_eq_some_iff _ rfl).mpr (by decide)⟩

/-- What stands behind a blank in a password is read as a key. -/
theorem exists_ofText?_text_ne :
    ¬ ∀ s : ConnectionSettings, s.url = none → ConnectionTarget.ofText? s.text = some s.target := by
  intro h
  have hread := h { unset with password := some "a b" } rfl
  revert hread
  decide

end ConnectionSettings

end TypedSql
