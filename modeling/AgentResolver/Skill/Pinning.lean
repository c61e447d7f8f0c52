import AgentResolver.Skill.Planning
import AgentResolver.Skill.Requests
import AgentResolver.Web.PlainUrls

/-!
# Requests at resolved addresses

A candidate on the handshake name itself is requested at a resolved address. Whether a candidate
counts as one is decided by comparing the name with the host of the candidate's URL, which has been
parsed and written out again. The two are the same unless the name ends in a number: the URL parser
reads such a name as an IPv4 address and writes it in dotted decimal.
-/

namespace AgentResolver

open JavaScript Web
open Interaction

variable {idna : Idna} {name : JSString}

/-! ## Names as hosts -/

/-- A name in normal form is a lower-case domain. -/
theorem IsHandshakeName.lower_domain (h : IsHandshakeName name) :
    IsLowerDomain (toScalars name) := by
  have hascii : ∀ c ∈ name, IsAscii c := fun c hc => (h.units hc).isAscii
  rw [to_scalars_ascii hascii]
  refine ⟨by simpa using h.ne_nil, fun c hc => ?_⟩
  obtain ⟨unit, hunit, rfl⟩ := List.mem_map.mp hc
  have hall : ∀ n < 0x80, (0x61 ≤ n ∧ n ≤ 0x7A) ∨ (0x30 ≤ n ∧ n ≤ 0x39) →
      isDomainChar (Char.ofNat n) := by
    decide
  rcases h.units hunit with hunit' | rfl | rfl
  · exact hall unit.toNat (hascii unit hunit) (lower_alnum_bounds hunit')
  · decide
  · decide

theorem IsHandshakeName.of_scalars (h : IsHandshakeName name) :
    ofScalars (toScalars name) = name :=
  of_scalars_to_scalars fun _ hc => (h.units hc).isAscii

theorem IsHandshakeName.scalars_last (h : IsHandshakeName name) :
    (toScalars name).getLast? ≠ some '.' := by
  intro hlast
  have hname : name = (toScalars name).map unit := by
    rw [← of_scalars_ascii fun c hc => domain_char_ascii (h.lower_domain.chars c hc), h.of_scalars]
  refine h.not_dot_last ?_
  rw [hname, List.getLast?_map, hlast]
  rfl

theorem IsHandshakeName.normalize_hostname (h : IsHandshakeName name) :
    normalizeHostname name = name := by
  rw [normalizeHostname, if_neg h.not_dot_last, h.to_lower_case]

/-- A lower-case host text that does not end with a dot is in normal form. -/
theorem normalize_hostname_lower {host : ScalarString} (h : IsLowerDomain host)
    (hlast : host.getLast? ≠ some '.') : normalizeHostname (ofScalars host) = ofScalars host := by
  have hascii : ∀ c ∈ host, isAsciiChar c := fun c hc => domain_char_ascii (h.chars c hc)
  have hunits : ∀ c ∈ host, IsAscii (unit c) ∧ asciiLower (unit c) = unit c ∧
      (unit c = unit '.' → c = '.') := by
    have hall : ∀ n < 0x80, isDomainChar (Char.ofNat n) → IsAscii (unit (Char.ofNat n)) ∧
        asciiLower (unit (Char.ofNat n)) = unit (Char.ofNat n) ∧
        (unit (Char.ofNat n) = unit '.' → Char.ofNat n = '.') := by
      decide
    exact fun c hc => @ascii_char_induction (fun c => isDomainChar c → IsAscii (unit c) ∧
      asciiLower (unit c) = unit c ∧ (unit c = unit '.' → c = '.')) hall c (hascii c hc)
      (h.chars c hc)
  rw [of_scalars_ascii hascii, normalizeHostname, if_neg, to_lower_case_eq_self]
  · intro c hc
    obtain ⟨d, hd, rfl⟩ := List.mem_map.mp hc
    exact (hunits d hd).1
  · intro c hc
    obtain ⟨d, hd, rfl⟩ := List.mem_map.mp hc
    exact (hunits d hd).2.1
  · intro hdot
    rw [List.getLast?_map] at hdot
    obtain ⟨c, hc, hunit⟩ := Option.map_eq_some_iff.mp hdot
    have hmem := List.mem_of_getLast? hc
    exact hlast ((hunits c hmem).2.2 hunit ▸ hc)

/-- The name under its own scheme is a URL when the name is a host. -/
theorem own_url (hname : IsHandshakeName name) :
    newUrl idna (text "https://" ++ name) =
      (parseHost idna true (toScalars name)).map fun host =>
        parsePathStart (.ofHost "https".toList host) [] := by
  have hparse := @parse_plain_url idna "https".toList (toScalars name) [] (by decide)
    hname.lower_domain (Or.inl rfl) (by simp)
  have hscalars : toScalars (text "https://" ++ name) =
      "https".toList ++ "://".toList ++ toScalars name ++ [] := by
    rw [to_scalars_text_append (by decide), List.append_nil]
    rfl
  rw [newUrl, hscalars, hparse]

/-- The origin of a name is a valid URL, unless ToASCII rejects a label of it that starts with
`xn--`, or its last label is a number and the name is no IPv4 address. -/
theorem own_origin_valid_iff (hname : IsHandshakeName name) (hidna : idna.KeepsAscii) :
    (newUrl idna (text "https://" ++ name)).isSome ↔
      (hasPunycodeLabel (toScalars name) = true → (idna (toScalars name)).isSome) ∧
        (endsInNumber (toScalars name) = true → (parseIpv4 (toScalars name)).isSome) := by
  have hdomain := hname.lower_domain.ascii_domain
  rw [own_url hname, Option.isSome_map, hdomain.parse_host_eq]
  -- A host is first passed through ToASCII and then, if it ends in a number, read as an address.
  constructor
  · intro hsome
    obtain ⟨host, hhost⟩ := Option.isSome_iff_exists.mp hsome
    obtain ⟨ascii, hascii, hread⟩ := Option.bind_eq_some_iff.mp hhost
    obtain rfl := hname.lower_domain.domain_to_ascii hidna hascii
    refine ⟨fun hpunycode => ?_, fun hnumber => ?_⟩
    · have hasked := (allowed_domain_eq hascii).1
      rw [if_neg (by simp [hpunycode])] at hasked
      rw [hasked]
      rfl
    · rw [if_pos hnumber] at hread
      obtain ⟨address, haddress, -⟩ := Option.map_eq_some_iff.mp hread
      rw [haddress]
      rfl
  · rintro ⟨hpunycode, hnumber⟩
    rw [hdomain.domain_to_ascii fun hlabel => ?_, Option.bind_some]
    · split
      · rename_i hends
        rw [Option.isSome_map]
        exact hnumber hends
      · rfl
    · obtain ⟨ascii, hascii⟩ := Option.isSome_iff_exists.mp (hpunycode hlabel)
      rw [hascii, hidna _ ascii hdomain.ascii hascii]

/-- The name under its own scheme, as a URL. -/
theorem own_origin {base : Url} (hname : IsHandshakeName name)
    (h : newUrl idna (text "https://" ++ name) = some base) :
    ∃ host, parseHost idna true (toScalars name) = some host ∧
      rootText base = text "https://" ++ ofScalars (serializeHost host) := by
  rw [own_url hname] at h
  obtain ⟨host, hhost, rfl⟩ := Option.map_eq_some_iff.mp h
  refine ⟨host, hhost, ?_⟩
  obtain ⟨segments, query, fragment, htail⟩ :=
    @parse_path_start_tail (Url.ofHost "https".toList host) rfl []
  have htext : "https".toList ++ ':' :: (Url.ofHost "https".toList host).serializeAuthority =
      "https://".toList ++ serializeHost host := by
    show "https".toList ++ ':' :: ("//".toList ++ [] ++ serializeHost host ++ []) = _
    rw [List.append_nil, List.append_nil]
    rfl
  rw [htail]
  show ofScalars ("https".toList ++ ':' :: (Url.ofHost "https".toList host).serializeAuthority) = _
  rw [htext, of_scalars_append]
  rfl

/-- A default candidate of the name, parsed again, has the same host. -/
theorem default_host {host : Host} {path : JSString} (hname : IsHandshakeName name)
    (hidna : idna.KeepsAscii) (hhost : parseHost idna true (toScalars name) = some host)
    (hpath : path ∈ defaultSkillPaths) :
    ∃ url, newUrl idna (text "https://" ++ ofScalars (serializeHost host) ++ path) = some url ∧
      url.hostname = ofScalars (serializeHost host) := by
  obtain ⟨hlower, hagain⟩ := parse_host_serialize hname.lower_domain hidna hhost
  obtain ⟨hvisible, hhead⟩ := (by decide : ∀ path ∈ defaultSkillPaths,
    (∀ c ∈ toScalars path, isC0Control c = false ∧ c ≠ ' ') ∧
      (toScalars path).head? = some '/') path hpath
  have hparse := @parse_plain_url idna "https".toList (serializeHost host) (toScalars path)
    (by decide) hlower (Or.inr (List.head?_eq_some_iff.mp hhead)) hvisible
  have hscalars : toScalars (text "https://" ++ ofScalars (serializeHost host) ++ path) =
      "https".toList ++ "://".toList ++ serializeHost host ++ toScalars path := by
    rw [List.append_assoc, to_scalars_text_append (by decide), to_scalars_of_scalars_append,
      ← List.append_assoc]
    rfl
  refine ⟨parsePathStart (.ofHost "https".toList host) (toScalars path), ?_, ?_⟩
  · rw [newUrl, hscalars, hparse, hagain]
    rfl
  · obtain ⟨segments, query, fragment, htail⟩ :=
      @parse_path_start_tail (Url.ofHost "https".toList host) rfl (toScalars path)
    rw [htail]
    rfl

/-- The name does not end in a number, or is the dotted-decimal text of an IPv4 address. -/
def HostIsName (name : JSString) : Prop :=
  endsInNumber (toScalars name) = true →
    ∃ address < 256 ^ 4, toScalars name = serializeIpv4 address

/-- A default candidate counts as one on the name exactly when the parser keeps the name. -/
theorem uses_resolved_name {base : Url} {candidate : Candidate} (hname : IsHandshakeName name)
    (hidna : idna.KeepsAscii) (hbase : newUrl idna (text "https://" ++ name) = some base)
    (hmem : candidate ∈ defaultCandidates base) :
    ∃ uses, candidateUsesResolvedName idna candidate.url name = .ok uses ∧
      (uses = true ↔ HostIsName name) := by
  obtain ⟨host, hhost, hroot⟩ := own_origin hname hbase
  obtain ⟨path, hpath, rfl⟩ := List.mem_map.mp hmem
  obtain ⟨url, hurl, hhostname⟩ := default_host hname hidna hhost hpath
  have hkept := serialize_host_eq_iff hname.lower_domain hidna hhost
  have hlast : (serializeHost host).getLast? ≠ some '.' := by
    obtain ⟨-, ⟨-, rfl⟩ | ⟨-, address, -, rfl⟩⟩ :=
      parse_host_lower hname.lower_domain hidna hhost
    · exact hname.scalars_last
    · exact fun hdot => (digit_facts (serialize_ipv4_last hdot)).2.1 rfl
  have hnormal := normalize_hostname_lower
    (parse_host_serialize hname.lower_domain hidna hhost).1 hlast
  refine ⟨decide (ofScalars (serializeHost host) = name), ?_, ?_⟩
  · rw [candidateUsesResolvedName, hroot, hurl]
    dsimp only
    rw [hhostname, hnormal, hname.normalize_hostname]
  · rw [decide_eq_true_iff, HostIsName, ← hkept, ← of_scalars_injective.eq_iff,
      hname.of_scalars]

/-! ## Requests -/

/-- A request without a fetcher at the first nonempty address. -/
def IsPinnedRequest (options : DiscoveryOptions) (event : Event) : Prop :=
  ∃ url fetchOptions address, event = .requestSkill url fetchOptions ∧
    selectAddress options.addresses = some address ∧ fetchOptions.address = some address

/-- A request whose URL has another host than the name has no address. -/
def HasNoForeignAddress (idna : Idna) (name : JSString) (event : Event) : Prop :=
  ∀ url fetchOptions parsed,
    event = .requestSkill url fetchOptions ∨ event = .fetch url fetchOptions →
    newUrl idna url = some parsed →
    normalizeHostname parsed.hostname ≠ normalizeHostname name → fetchOptions.address = none

theorem no_foreign_address (platform : Platform) (options : DiscoveryOptions) (trace : Trace) :
    ∃ added, (discoverSkillMd platform options trace).2 = trace ++ added ∧
      ∀ event ∈ added, HasNoForeignAddress platform.idna options.name event := by
  obtain ⟨added, asked, hrun, hall, -⟩ := discover_skill_md_events platform options trace
  refine ⟨added, hrun, fun event hevent => ?_⟩
  obtain ⟨candidate, -, requires, huses, -, rfl⟩ := candidate_of_request hall hevent
  intro url fetchOptions parsed hrequest hparsed hforeign
  have hsame : candidate.url = url ∧ candidateOptions options requires = fetchOptions := by
    unfold FetchPath.event at hrequest
    cases hfetcher : options.fetchPath.fetcher with
    | none =>
        rw [hfetcher] at hrequest
        simpa using hrequest
    | some fetch =>
        rw [hfetcher] at hrequest
        simpa using hrequest
  obtain ⟨rfl, rfl⟩ := hsame
  rw [candidateUsesResolvedName, hparsed] at huses
  obtain rfl : decide (normalizeHostname parsed.hostname = normalizeHostname options.name) =
      requires := Except.ok.inj huses
  simp [candidateOptions, hforeign]

/-- The first nonempty address is what an unblocked request on the name is made at. -/
theorem address_of_open {options : DiscoveryOptions} (hfetcher : options.fetchPath.fetcher = none)
    (hopen : isBlocked options true = false) :
    ∃ address, selectAddress options.addresses = some address := by
  cases hselect : selectAddress options.addresses with
  | some address => exact ⟨address, rfl⟩
  | none => simp [isBlocked, candidateOptions, hselect, isFalsy, hfetcher] at hopen

/-- The plan of a name without an endpoint and a skill. -/
theorem own_plan {metadata : Properties JSString} {base : Url}
    (hbase : newUrl idna (text "https://" ++ name) = some base)
    (hendpoint : declaredEndpoint metadata = none) (hskill : declaredSkill metadata = none) :
    ∃ plan, buildSkillCandidatePlan idna name metadata (text "https") = .ok plan ∧
      plan.candidates = defaultCandidates base := by
  have horigin : expectedOrigin idna (text "https") name (declaredEndpoint metadata) =
      text "https://" ++ name := by
    rw [hendpoint]
    rfl
  rw [← horigin] at hbase
  have hresolves : SkillResolves idna
      (expectedOrigin idna (text "https") name (declaredEndpoint metadata))
      (declaredSkill metadata) := by
    rw [hskill]
    intro reference hreference
    cases hreference
  refine ⟨_, (build_plan_ok_iff (Or.inr rfl) hbase).mpr ⟨hresolves, rfl⟩, ?_⟩
  rw [hskill]
  exact planned_candidates_none _

/-- Where the parser does not keep the name, the first request is made without an address. -/
theorem first_request_unpinned (platform : Platform) (options : DiscoveryOptions) (trace : Trace)
    {base : Url} {plan : SkillCandidatePlan} (hname : IsHandshakeName options.name)
    (hidna : platform.idna.KeepsAscii)
    (hbase : newUrl platform.idna (text "https://" ++ options.name) = some base)
    (hplan : buildSkillCandidatePlan platform.idna options.name options.metadata
      (options.defaultScheme.getD (text "https")) = .ok plan)
    (hcandidates : plan.candidates = defaultCandidates base)
    (hhost : ¬ HostIsName options.name) :
    ∃ more, (discoverSkillMd platform options trace).2 =
      trace ++ options.fetchPath.event (rootText base ++ text "/SKILL.md")
        (candidateOptions options false) :: more := by
  obtain ⟨rest, hfirst⟩ : ∃ rest, defaultCandidates base =
      ⟨text "/SKILL.md", rootText base ++ text "/SKILL.md"⟩ :: rest := ⟨_, rfl⟩
  obtain ⟨uses, huses, hiff⟩ := uses_resolved_name hname hidna hbase
    (hfirst ▸ List.mem_cons_self :
      ⟨text "/SKILL.md", rootText base ++ text "/SKILL.md"⟩ ∈ defaultCandidates base)
  obtain rfl : uses = false := by
    cases uses with
    | false => rfl
    | true => exact absurd (hiff.mp rfl) hhost
  rw [discover_skill_md_loop platform options trace hplan, hcandidates, hfirst]
  exact @fetch_loop_first platform options _ rest false huses rfl [] trace

/-- Without an endpoint and a skill, and without an injected fetcher, every request is made at the
first nonempty address exactly when the URL parser keeps the name. In every run, a request to
another host is made without an address. -/
theorem own_requests_pinned_iff (platform : Platform) (options : DiscoveryOptions) (trace : Trace)
    {input : JSString} (hname : normalizeHandshakeName input = .ok options.name)
    (hidna : platform.idna.KeepsAscii)
    (hvalid : (newUrl platform.idna (text "https://" ++ options.name)).isSome)
    (hendpoint : declaredEndpoint options.metadata = none)
    (hskill : declaredSkill options.metadata = none)
    (hfetcher : options.fetchPath.fetcher = none)
    (hscheme : options.defaultScheme.getD (text "https") = text "https") :
    ((∃ added, (discoverSkillMd platform options trace).2 = trace ++ added ∧
        ∀ event ∈ added, IsPinnedRequest options event) ↔ HostIsName options.name) ∧
      ∀ (other : DiscoveryOptions) (start : Trace),
        ∃ added, (discoverSkillMd platform other start).2 = start ++ added ∧
          ∀ event ∈ added, HasNoForeignAddress platform.idna other.name event := by
  refine ⟨?_, no_foreign_address platform⟩
  obtain ⟨base, hbase⟩ := Option.isSome_iff_exists.mp hvalid
  have hnormal := normalize_valid hname
  obtain ⟨plan, hplan, hcandidates⟩ := own_plan hbase hendpoint hskill
  rw [← hscheme] at hplan
  constructor
  · -- If the parser changes the host, already the first request has no address.
    rintro ⟨added, hadded, hpinned⟩
    by_contra hhost
    obtain ⟨more, hmore⟩ := first_request_unpinned platform options trace hnormal hidna hbase
      hplan hcandidates hhost
    rw [hmore] at hadded
    obtain ⟨url, fetchOptions, address, hrequest, -, haddress⟩ := hpinned _
      (List.append_cancel_left hadded ▸ List.mem_cons_self)
    rw [FetchPath.event, hfetcher] at hrequest
    obtain ⟨-, rfl⟩ := Event.requestSkill.inj hrequest
    cases haddress
  · intro hhost
    obtain ⟨added, asked, hrun, hall, hasked⟩ := discover_skill_md_events platform options trace
    refine ⟨added, hrun, fun event hevent => ?_⟩
    obtain ⟨candidate, hcandidate, requires, huses, hopen, rfl⟩ :=
      candidate_of_request hall hevent
    have hmem : candidate ∈ defaultCandidates base := by
      rcases hasked with rfl | ⟨plan', hplan', hsub⟩
      · cases hcandidate
      · obtain rfl := Except.ok.inj (hplan.symm.trans hplan')
        exact hcandidates ▸ hsub.subset hcandidate
    obtain ⟨uses, huses', hiff⟩ := uses_resolved_name hnormal hidna hbase hmem
    obtain rfl := Except.ok.inj (huses'.symm.trans huses)
    obtain rfl := hiff.mpr hhost
    obtain ⟨address, haddress⟩ := address_of_open hfetcher hopen
    refine ⟨candidate.url, candidateOptions options true, address, ?_, haddress, haddress⟩
    rw [FetchPath.event, hfetcher]

/-- Discovery for a name without metadata, whose requests are refused. -/
def ownDiscovery (name : JSString) (addresses : List JSString) : DiscoveryOptions where
  name := name
  metadata := []
  addresses := addresses
  timeoutMs := none
  fetchPath := ⟨none, fun _ _ _ => .error ⟨text "connect ECONNREFUSED"⟩⟩
  defaultScheme := none

/-- The requests for a name that does not end in a number. -/
theorem own_requests_pinned_iff_example :
    ∃ added, (discoverSkillMd .ascii (ownDiscovery (text "example") [text "192.0.2.1"]) []).2 =
        [] ++ added ∧
      ∀ event ∈ added,
        IsPinnedRequest (ownDiscovery (text "example") [text "192.0.2.1"]) event := by
  have hname : IsHandshakeName (text "example") := ⟨by decide, by decide⟩
  have hhost : HostIsName (text "example") := by
    intro hnumber
    exact absurd hnumber (by decide)
  obtain ⟨hiff, -⟩ := @own_requests_pinned_iff .ascii
    (ownDiscovery (text "example") [text "192.0.2.1"]) [] (text "example") hname.normalize
    (fun _ _ _ h => nomatch h) rfl rfl rfl rfl rfl
  exact hiff.mpr hhost

/-- The name `1` is requested at the IPv4 address 0.0.0.1, without the resolved address. -/
theorem numeric_name_not_pinned :
    normalizeHandshakeName (text "1") = .ok (text "1") ∧
      (newUrl Platform.ascii.idna (text "https://1")).isSome ∧
      ∃ more, (discoverSkillMd .ascii (ownDiscovery (text "1") [text "192.0.2.1"]) []).2 =
        .requestSkill (text "https://0.0.0.1/SKILL.md")
          { address := none
            requiresResolvedAddress := false
            name := text "1"
            timeoutMs := defaultSkillFetchTimeoutMs } :: more := by
  have hname : IsHandshakeName (text "1") := ⟨by decide, by decide⟩
  -- A serialized IPv4 address has four labels, the name has one.
  have hhost : ¬ HostIsName (text "1") := by
    intro hkept
    obtain ⟨address, -, haddress⟩ := hkept (by decide)
    have hlabels := split_serialize_ipv4 address
    rw [← haddress] at hlabels
    have hone : ((toScalars (text "1")).splitOn '.').length = 1 := by decide
    rw [hlabels] at hone
    cases hone
  obtain ⟨base, hbase⟩ : ∃ base, newUrl Platform.ascii.idna (text "https://1") = some base :=
    ⟨_, rfl⟩
  have hroot : rootText base = text "https://0.0.0.1" := by
    obtain ⟨host, hparse, hroot⟩ := own_origin hname hbase
    have hknown : parseHost Platform.ascii.idna true (toScalars (text "1")) = some (.ipv4 1) := rfl
    obtain rfl := Option.some.inj (hknown.symm.trans hparse)
    exact hroot
  obtain ⟨plan, hplan, hcandidates⟩ :=
    @own_plan Platform.ascii.idna (text "1") [] base hbase rfl rfl
  obtain ⟨more, hmore⟩ := first_request_unpinned .ascii
    (ownDiscovery (text "1") [text "192.0.2.1"]) [] hname (fun _ _ _ h => nomatch h) hbase hplan
    hcandidates hhost
  refine ⟨hname.normalize, by rw [hbase]; rfl, more, ?_⟩
  rw [hmore, hroot]
  rfl

end AgentResolver
