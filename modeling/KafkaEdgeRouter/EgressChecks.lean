import KafkaEdgeRouter.EgressSecurity

/-!
# What the egress checks let through

The answer of a resolver should be judged as a set of addresses. The loop that collects it stops at
the sixteenth distinct address if anything follows, also a repetition. So an answer with exactly
sixteen distinct addresses is refused when its last address is a repeated one.

A private IPv4 address can be written as an IPv6 address in several ways. The checks know the mapped
form and refuse the prefixes of NAT64 and 6to4 altogether, but they take the IPv4-compatible form
for a public address.
-/

namespace KafkaEdgeRouter.Webhook

/-! ### Sets of addresses -/

/-- The decision on a set of addresses. -/
def judgeAddresses (allowPrivateIps : Bool) (addresses : Finset SocketAddr) :
    Except EgressError (Finset SocketAddr) :=
  if maxResolvedAddresses < addresses.card then
    .error (.invalidUrl "destination resolves to too many addresses")
  else if addresses = ∅ then .error (.invalidUrl "destination resolved to no addresses")
  else if ¬ allowPrivateIps ∧ ∃ address ∈ addresses, isPrivateOrSpecial address.ip = true then
    .error (.invalidUrl "destination DNS includes a private or special address")
  else .ok addresses

/-- Sixteen distinct addresses, and the last one has occurred before. -/
def RepeatsAtLimit (resolved : List SocketAddr) : Prop :=
  resolved.toFinset.card = maxResolvedAddresses ∧
    ∃ front address, resolved = front ++ [address] ∧ address ∈ front

section Collecting

variable {addresses resolved : List SocketAddr} {address : SocketAddr}

def keep (addresses : List SocketAddr) (address : SocketAddr) : List SocketAddr :=
  if address ∈ addresses then addresses else addresses ++ [address]

theorem collectAddresses_cons (hroom : addresses.length ≠ maxResolvedAddresses) :
    collectAddresses addresses (address :: resolved) =
      collectAddresses (keep addresses address) resolved := by
  rw [collectAddresses, if_neg hroom, keep]
  split_ifs <;> rfl

theorem nodup_keep (h : addresses.Nodup) : (keep addresses address).Nodup := by
  unfold keep
  split_ifs with hmem
  · exact h
  · exact List.nodup_append.mpr ⟨h, List.nodup_singleton _, fun a ha b hb => by
      rw [List.mem_singleton] at hb
      exact fun heq => hmem (hb ▸ heq ▸ ha)⟩

theorem length_keep_le : (keep addresses address).length ≤ addresses.length + 1 := by
  unfold keep
  split_ifs
  · exact Nat.le_succ _
  · rw [List.length_append, List.length_singleton]

theorem toFinset_keep (addresses : List SocketAddr) (address : SocketAddr)
    (rest : List SocketAddr) :
    (keep addresses address ++ rest).toFinset = (addresses ++ address :: rest).toFinset := by
  unfold keep
  ext a
  split_ifs with hmem
  · simp only [List.mem_toFinset, List.mem_append, List.mem_cons]
    exact ⟨fun h => h.elim Or.inl (fun h => Or.inr (Or.inr h)),
      fun h => h.elim Or.inl (fun h => h.elim (fun heq => Or.inl (heq ▸ hmem)) Or.inr)⟩
  · simp

theorem collectAddresses_eq_ok (hnodup : addresses.Nodup)
    (hroom : (addresses ++ resolved.dropLast).toFinset.card < maxResolvedAddresses) :
    ∃ collected, collectAddresses addresses resolved = .ok collected ∧
      collected.toFinset = (addresses ++ resolved).toFinset := by
  induction resolved generalizing addresses with
  | nil => exact ⟨addresses, rfl, by rw [List.append_nil]⟩
  | cons address resolved ih =>
    have hlength : addresses.length ≠ maxResolvedAddresses := by
      have hsubset : addresses.toFinset ⊆
          (addresses ++ (address :: resolved).dropLast).toFinset := by
        intro a ha
        simp only [List.mem_toFinset, List.mem_append] at ha ⊢
        exact Or.inl ha
      have hcard := Finset.card_le_card hsubset
      rw [List.toFinset_card_of_nodup hnodup] at hcard
      omega
    rw [collectAddresses_cons hlength]
    cases resolved with
    | nil =>
      refine ⟨_, rfl, ?_⟩
      have hkeep := toFinset_keep addresses address []
      rwa [List.append_nil] at hkeep
    | cons next rest =>
      rw [List.dropLast_cons_cons, ← toFinset_keep] at hroom
      obtain ⟨collected, heq, hset⟩ := ih (nodup_keep hnodup) hroom
      exact ⟨collected, heq, by rw [hset, toFinset_keep]⟩

/-- The loop fails if sixteen addresses are there before the last. -/
theorem collectAddresses_eq_error (hnodup : addresses.Nodup)
    (hlength : addresses.length ≤ maxResolvedAddresses) (hne : resolved ≠ [])
    (hfull : maxResolvedAddresses ≤ (addresses ++ resolved.dropLast).toFinset.card) :
    collectAddresses addresses resolved =
      .error (.invalidUrl "destination resolves to too many addresses") := by
  induction resolved generalizing addresses with
  | nil => exact absurd rfl hne
  | cons address resolved ih =>
    by_cases hstop : addresses.length = maxResolvedAddresses
    · rw [collectAddresses, if_pos hstop]
    · rw [collectAddresses_cons hstop]
      cases resolved with
      | nil =>
        rw [List.dropLast_singleton, List.append_nil, List.toFinset_card_of_nodup hnodup] at hfull
        omega
      | cons next rest =>
        rw [List.dropLast_cons_cons, ← toFinset_keep] at hfull
        have hkeep : (keep addresses address).length ≤ addresses.length + 1 := length_keep_le
        exact ih (nodup_keep hnodup) (by omega) (by simp) hfull

theorem pinAddresses_eq (allowPrivateIps : Bool) {build : Client → Except String Unit}
    (hbuild : ∀ client, build client = .ok ()) (host : String)
    (hcard : addresses.toFinset.card ≤ maxResolvedAddresses) :
    (pinAddresses allowPrivateIps build host addresses).map
        (fun client => client.addresses.toFinset) =
      judgeAddresses allowPrivateIps addresses.toFinset := by
  have hempty : addresses.isEmpty = true ↔ addresses.toFinset = ∅ := by
    rw [List.isEmpty_iff, List.toFinset_eq_empty_iff]
  have hprivate : addresses.any (fun address => isPrivateOrSpecial address.ip) = true ↔
      ∃ address ∈ addresses.toFinset, isPrivateOrSpecial address.ip = true := by
    simp [List.any_eq_true]
  unfold pinAddresses judgeAddresses
  rw [if_neg (Nat.not_lt.mpr hcard)]
  simp only [hempty, hprivate, hbuild]
  split_ifs <;> rfl

theorem toFinset_concat_card (front : List SocketAddr) (address : SocketAddr) :
    (front ++ [address]).toFinset.card =
      front.toFinset.card + if address ∈ front then 0 else 1 := by
  have hinsert : (front ++ [address]).toFinset = insert address front.toFinset := by
    rw [List.toFinset_append, List.toFinset_cons, List.toFinset_nil, insert_empty_eq,
      Finset.union_comm, Finset.insert_eq]
  rw [hinsert]
  split_ifs with hmem
  · rw [Finset.insert_eq_of_mem (List.mem_toFinset.mpr hmem), Nat.add_zero]
  · exact Finset.card_insert_of_notMem (fun h => hmem (List.mem_toFinset.mp h))

theorem repeatsAtLimit_concat (front : List SocketAddr) (address : SocketAddr) :
    RepeatsAtLimit (front ++ [address]) ↔
      front.toFinset.card = maxResolvedAddresses ∧ address ∈ front := by
  constructor
  · rintro ⟨hcard, front', address', heq, hmem⟩
    obtain ⟨rfl, haddress⟩ := List.append_inj' heq rfl
    obtain rfl := (List.cons.inj haddress).1
    rw [toFinset_concat_card, if_pos hmem] at hcard
    exact ⟨hcard, hmem⟩
  · rintro ⟨hcard, hmem⟩
    refine ⟨?_, front, address, rfl, hmem⟩
    rwa [toFinset_concat_card, if_pos hmem]

theorem judgeAddresses_eq_tooMany {allowPrivateIps : Bool} {set : Finset SocketAddr} :
    judgeAddresses allowPrivateIps set =
        .error (.invalidUrl "destination resolves to too many addresses") ↔
      maxResolvedAddresses < set.card := by
  unfold judgeAddresses
  split_ifs with hmany
  · exact iff_of_true rfl hmany
  · exact iff_of_false (by simp) hmany
  · exact iff_of_false (by simp) hmany
  · exact iff_of_false (by simp) hmany

end Collecting

/-- The answer is judged as a set, whatever its order and repetitions, unless it repeats an address
after sixteen distinct ones. -/
theorem pinned_as_set_iff (parseIp : IpParser)
    {lookupHost : String → ℕ → Option (List SocketAddr)} {build : Client → Except String Unit}
    (hbuild : ∀ client, build client = .ok ()) {url : Url} {host : String} {port : ℕ}
    (hhost : url.host = some host) (hport : url.port = some port)
    (hname : parseIp (normalizedHost host) = none) {resolved : List SocketAddr}
    (hlookup : lookupHost (normalizedHost host) port = some resolved) (allowPrivateIps : Bool) :
    (pinnedClient parseIp lookupHost build url allowPrivateIps).map
        (fun client => client.addresses.toFinset) =
      judgeAddresses allowPrivateIps resolved.toFinset ↔ ¬ RepeatsAtLimit resolved := by
  have hpinned : pinnedClient parseIp lookupHost build url allowPrivateIps =
      collectAddresses [] resolved >>=
        pinAddresses allowPrivateIps build (normalizedHost host) := by
    simp only [pinnedClient, hhost, hport, hname, hlookup]
  rw [hpinned]
  rcases List.eq_nil_or_concat resolved with rfl | ⟨front, address, heq⟩
  · have hnil : ([] : List SocketAddr).toFinset.card ≤ maxResolvedAddresses := Nat.zero_le _
    refine iff_of_true (pinAddresses_eq allowPrivateIps hbuild (normalizedHost host) hnil) ?_
    rintro ⟨hcard, _⟩
    cases hcard
  · rw [List.concat_eq_append] at heq
    subst heq
    rw [repeatsAtLimit_concat]
    have hcard := toFinset_concat_card front address
    have hfront : ([] ++ (front ++ [address]).dropLast).toFinset.card = front.toFinset.card := by
      rw [List.dropLast_concat, List.nil_append]
    by_cases hroom : front.toFinset.card < maxResolvedAddresses
    · obtain ⟨collected, hcollect, hset⟩ :=
        collectAddresses_eq_ok List.nodup_nil (Nat.lt_of_le_of_lt (Nat.le_of_eq hfront) hroom)
      rw [List.nil_append] at hset
      have hle : collected.toFinset.card ≤ maxResolvedAddresses := by
        rw [hset, hcard]
        split_ifs <;> omega
      refine iff_of_true ?_ (fun h => by omega)
      rw [hcollect, ← hset]
      exact pinAddresses_eq allowPrivateIps hbuild _ hle
    · have hfull := Nat.le_trans (Nat.le_of_not_lt hroom) (Nat.le_of_eq hfront.symm)
      have hcollect := collectAddresses_eq_error List.nodup_nil (Nat.zero_le _) (by simp) hfull
      rw [hcollect, eq_comm]
      refine judgeAddresses_eq_tooMany.trans ?_
      rw [hcard]
      split_ifs with hmem
      · simp only [hmem, and_true]
        omega
      · simp only [hmem, and_false, not_false_eq_true, iff_true]
        omega

def hookUrl : Url where
  scheme := "https"
  username := ""
  password := none
  fragment := none
  host := some "example.com"
  port := some 443

def sixteenAddresses : List SocketAddr :=
  (List.range 16).map fun k => { ip := .v4 ⟨93, 184, 216, BitVec.ofNat 8 k⟩, port := 443 }

def resolvesTo (resolved : List SocketAddr) : String → ℕ → Option (List SocketAddr) :=
  fun _ _ => some resolved

/-- The same sixteen addresses are accepted, and refused with the first of them repeated. -/
theorem repeated_answer_refused :
    (sixteenAddresses ++ sixteenAddresses.take 1).toFinset = sixteenAddresses.toFinset ∧
      pinnedClient (fun _ => none) (resolvesTo sixteenAddresses) (fun _ => .ok ()) hookUrl false =
        .ok ⟨"example.com", sixteenAddresses⟩ ∧
      pinnedClient (fun _ => none) (resolvesTo (sixteenAddresses ++ sixteenAddresses.take 1))
          (fun _ => .ok ()) hookUrl false =
        .error (.invalidUrl "destination resolves to too many addresses") := by
  decide +kernel

theorem pinned_as_set_iff_example :
    (pinnedClient (fun _ => none) (resolvesTo (sixteenAddresses.take 1 ++ sixteenAddresses))
        (fun _ => .ok ()) hookUrl false).map (fun client => client.addresses.toFinset) =
      judgeAddresses false (sixteenAddresses.take 1 ++ sixteenAddresses).toFinset := by
  refine (pinned_as_set_iff (fun _ => none) (fun _ => rfl) rfl rfl rfl rfl false).mpr ?_
  have hsplit : sixteenAddresses.take 1 ++ sixteenAddresses =
      (sixteenAddresses.take 1 ++ sixteenAddresses.take 15) ++ sixteenAddresses.drop 15 := by
    rw [List.append_assoc, List.take_append_drop]
  have hlast : sixteenAddresses.drop 15 =
      [{ ip := .v4 ⟨93, 184, 216, 15⟩, port := 443 }] := by decide
  rw [hsplit, hlast, repeatsAtLimit_concat]
  decide

/-! ### Embedded addresses -/

/-- The standard forms in which an IPv6 address embeds an IPv4 address. -/
inductive Embedding
  | mapped
  | compatible
  | nat64
  | sixToFour (s3 s4 s5 s6 s7 : BitVec 16)

def Ipv4Addr.high (address : Ipv4Addr) : BitVec 16 := address.a ++ address.b

def Ipv4Addr.low (address : Ipv4Addr) : BitVec 16 := address.c ++ address.d

def Embedding.embed (address : Ipv4Addr) : Embedding → Ipv6Addr
  | .mapped => ⟨0, 0, 0, 0, 0, 0xffff, address.high, address.low⟩
  | .compatible => ⟨0, 0, 0, 0, 0, 0, address.high, address.low⟩
  | .nat64 => ⟨0x0064, 0xff9b, 0, 0, 0, 0, address.high, address.low⟩
  | .sixToFour s3 s4 s5 s6 s7 => ⟨0x2002, address.high, address.low, s3, s4, s5, s6, s7⟩

/-- The form that no check knows, apart from the unspecified address and the loopback address, which
coincide with the forms of `0.0.0.0` and `0.0.0.1`. -/
def Embedding.Unknown (address : Ipv4Addr) : Embedding → Prop
  | .compatible => address ≠ ⟨0, 0, 0, 0⟩ ∧ address ≠ ⟨0, 0, 0, 1⟩
  | _ => False

section Embedded

variable {address : Ipv4Addr}

theorem append_inj {a b c d : BitVec 8} (h : a ++ b = c ++ d) : a = c ∧ b = d := by
  have hleft := congrArg (BitVec.extractLsb' 8 8) h
  have hright := congrArg (BitVec.extractLsb' 0 8) h
  rw [BitVec.extractLsb'_append_eq_left, BitVec.extractLsb'_append_eq_left] at hleft
  rw [BitVec.extractLsb'_append_eq_right, BitVec.extractLsb'_append_eq_right] at hright
  exact ⟨hleft, hright⟩

theorem toIpv4Mapped_mapped (address : Ipv4Addr) :
    (Embedding.mapped.embed address).toIpv4Mapped = some address := by
  simp only [Embedding.embed, Ipv6Addr.toIpv4Mapped, Ipv4Addr.high, Ipv4Addr.low, and_self, if_true,
    BitVec.extractLsb'_append_eq_left, BitVec.extractLsb'_append_eq_right]

theorem eq_of_halves {address' : Ipv4Addr} (hhigh : address.high = address'.high)
    (hlow : address.low = address'.low) : address = address' := by
  obtain ⟨a, b, c, d⟩ := address
  obtain ⟨a', b', c', d'⟩ := address'
  obtain ⟨rfl, rfl⟩ := append_inj hhigh
  obtain ⟨rfl, rfl⟩ := append_inj hlow
  rfl

theorem embed_compatible_eq (address' : Ipv4Addr) :
    Embedding.compatible.embed address = Embedding.compatible.embed address' ↔
      address = address' := by
  constructor
  · intro h
    simp only [Embedding.embed, Ipv6Addr.mk.injEq] at h
    exact eq_of_halves h.2.2.2.2.2.2.1 h.2.2.2.2.2.2.2
  · rintro rfl
    rfl

theorem privateOrSpecial_compatible (address : Ipv4Addr) :
    (Embedding.compatible.embed address).privateOrSpecial = true ↔
      address = ⟨0, 0, 0, 0⟩ ∨ address = ⟨0, 0, 0, 1⟩ := by
  have hzero : Embedding.compatible.embed ⟨0, 0, 0, 0⟩ = ⟨0, 0, 0, 0, 0, 0, 0, 0⟩ := by decide
  have hone : Embedding.compatible.embed ⟨0, 0, 0, 1⟩ = ⟨0, 0, 0, 0, 0, 0, 0, 1⟩ := by decide
  rw [← embed_compatible_eq ⟨0, 0, 0, 0⟩, ← embed_compatible_eq ⟨0, 0, 0, 1⟩, hzero, hone]
  have hranges : (Embedding.compatible.embed address).privateOrSpecial =
      ((Embedding.compatible.embed address).isLoopback ||
        (Embedding.compatible.embed address).isUnspecified) := by
    simp [Ipv6Addr.privateOrSpecial, Ipv6Addr.isMulticast, Ipv6Addr.toIpv4Mapped, Embedding.embed]
  rw [hranges, Bool.or_eq_true, Ipv6Addr.isLoopback, Ipv6Addr.isUnspecified, beq_iff_eq, beq_iff_eq,
    or_comm]

theorem privateOrSpecial_embed (hprivate : address.privateOrSpecial = true) (form : Embedding) :
    (form.embed address).privateOrSpecial = true ↔ ¬ form.Unknown address := by
  cases form with
  | mapped =>
    refine iff_of_true ?_ id
    rw [Ipv6Addr.privateOrSpecial, toIpv4Mapped_mapped, Option.any_some, hprivate, Bool.or_true]
  | compatible =>
    rw [privateOrSpecial_compatible, Embedding.Unknown]
    tauto
  | nat64 => exact iff_of_true (by simp [Ipv6Addr.privateOrSpecial, Embedding.embed]) id
  | sixToFour s3 s4 s5 s6 s7 =>
    exact iff_of_true (by simp [Ipv6Addr.privateOrSpecial, Embedding.embed]) id

theorem validateDestinationUrl_private {parseUrl : UrlParser} {parseIp : IpParser} {raw : String}
    {url : Url} {host : String} {ip : IpAddr} (hurl : parseUrl raw = .ok url)
    (hhost : url.host = some host) (hip : parseIp (normalizedHost host) = some ip)
    (hprivate : isPrivateOrSpecial ip = true) (allowedHosts : List String) (allowHttp : Bool)
    (url' : Url) :
    validateDestinationUrl parseUrl parseIp raw allowedHosts false allowHttp ≠ .ok url' := by
  intro h
  simp only [validateDestinationUrl, hurl, Except.mapError, hhost, hip, Option.any_some, hprivate,
    bind, Except.bind] at h
  split_ifs at h with _ _ _ _ hopen
  exact hopen ⟨id, trivial⟩

theorem mem_of_collectAddresses {addresses resolved collected : List SocketAddr}
    (h : collectAddresses addresses resolved = .ok collected) :
    ∀ socket ∈ addresses ++ resolved, socket ∈ collected := by
  induction resolved generalizing addresses with
  | nil =>
    cases h
    simp
  | cons address resolved ih =>
    by_cases hstop : addresses.length = maxResolvedAddresses
    · rw [collectAddresses, if_pos hstop] at h
      cases h
    · rw [collectAddresses_cons hstop] at h
      intro socket hmem
      apply ih h socket
      rw [← List.mem_toFinset, toFinset_keep, List.mem_toFinset]
      exact hmem

theorem pinnedClient_private {parseIp : IpParser}
    {lookupHost : String → ℕ → Option (List SocketAddr)} {build : Client → Except String Unit}
    {url : Url} {host : String} {port : ℕ} (hhost : url.host = some host)
    (hport : url.port = some port) (hname : parseIp (normalizedHost host) = none)
    {resolved : List SocketAddr}
    (hlookup : lookupHost (normalizedHost host) port = some resolved) {socket : SocketAddr}
    (hmem : socket ∈ resolved) (hprivate : isPrivateOrSpecial socket.ip = true) (client : Client) :
    pinnedClient parseIp lookupHost build url false ≠ .ok client := by
  intro h
  simp only [pinnedClient, hhost, hport, hname, hlookup] at h
  obtain ⟨collected, hcollect, hpin⟩ := bind_eq_ok.mp h
  have hany : collected.any (fun address => isPrivateOrSpecial address.ip) = true :=
    List.any_eq_true.mpr ⟨socket, mem_of_collectAddresses hcollect socket hmem, hprivate⟩
  simp only [pinAddresses, hany] at hpin
  split_ifs at hpin with _ hopen
  exact hopen ⟨by simp, trivial⟩

end Embedded

/-- An IPv6 address that embeds a private IPv4 address is refused in every form but the compatible
one. -/
theorem embedded_private_refused_iff {address : Ipv4Addr}
    (hprivate : address.privateOrSpecial = true) (form : Embedding) :
    (isPrivateOrSpecial (.v6 (form.embed address)) = true ∧
      (∀ (parseUrl : UrlParser) (parseIp : IpParser) (raw : String) (url : Url) (host : String),
        parseUrl raw = .ok url → url.host = some host →
        parseIp (normalizedHost host) = some (.v6 (form.embed address)) →
        ∀ allowedHosts allowHttp url',
          validateDestinationUrl parseUrl parseIp raw allowedHosts false allowHttp ≠ .ok url') ∧
      ∀ (parseIp : IpParser) (lookupHost : String → ℕ → Option (List SocketAddr))
        (build : Client → Except String Unit) (url : Url) (host : String) (port : ℕ)
        (resolved : List SocketAddr),
        url.host = some host → url.port = some port → parseIp (normalizedHost host) = none →
        lookupHost (normalizedHost host) port = some resolved →
        (∃ socket ∈ resolved, socket.ip = .v6 (form.embed address)) →
        ∀ client, pinnedClient parseIp lookupHost build url false ≠ .ok client) ↔
      ¬ form.Unknown address := by
  constructor
  · intro h
    exact (privateOrSpecial_embed hprivate form).mp h.1
  · intro hknown
    have hspecial : isPrivateOrSpecial (.v6 (form.embed address)) = true :=
      (privateOrSpecial_embed hprivate form).mpr hknown
    refine ⟨hspecial, ?_, ?_⟩
    · intro parseUrl parseIp raw url host hurl hhost hip allowedHosts allowHttp url'
      exact validateDestinationUrl_private hurl hhost hip hspecial allowedHosts allowHttp url'
    · intro parseIp lookupHost build url host port resolved hhost hport hname hlookup hsocket client
      obtain ⟨socket, hmem, hip⟩ := hsocket
      rw [← hip] at hspecial
      exact pinnedClient_private hhost hport hname hlookup hmem hspecial client

def localhost : Ipv4Addr := ⟨127, 0, 0, 1⟩

def compatibleUrl : Url := { hookUrl with host := some "[::7f00:1]" }

def compatibleIp : IpParser := fun text =>
  if text = "::7f00:1" then some (.v6 ⟨0, 0, 0, 0, 0, 0, 0x7f00, 1⟩) else none

/-- The loopback address in its compatible form passes both checks. -/
theorem compatible_localhost_accepted :
    localhost.privateOrSpecial = true ∧
      Embedding.compatible.embed localhost = ⟨0, 0, 0, 0, 0, 0, 0x7f00, 1⟩ ∧
      isPrivateOrSpecial (.v6 (Embedding.compatible.embed localhost)) = false ∧
      validateDestinationUrl (fun _ => .ok compatibleUrl) compatibleIp
        "https://[::7f00:1]/hook" [] false false = .ok compatibleUrl ∧
      pinnedClient (fun _ => none)
          (resolvesTo [{ ip := .v6 (Embedding.compatible.embed localhost), port := 443 }])
          (fun _ => .ok ()) hookUrl false =
        .ok ⟨"example.com",
          [{ ip := .v6 (Embedding.compatible.embed localhost), port := 443 }]⟩ := by
  decide +kernel

theorem embedded_private_refused_iff_mapped :
    isPrivateOrSpecial (.v6 (Embedding.mapped.embed localhost)) = true := by
  have hprivate : localhost.privateOrSpecial = true := by decide
  exact ((embedded_private_refused_iff hprivate .mapped).mpr id).1

end KafkaEdgeRouter.Webhook
