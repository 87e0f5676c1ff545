import Workflows.Auth.Login
import Mathlib

/-!
# Where a login redirects to

The patterns are anchored at their start only. Whatever stands behind the host name that a pattern
finds still belongs to the authority of the URL: more labels, a port, or the `@` that turns the name
into userinfo.
-/

namespace Workflows.Auth

open Execution Regex Computability

section Urls

/-- The authority of a URL, given what stands behind `//`. -/
def authority (rest : List Char) : List Char :=
  rest.takeWhile fun c => c ≠ '/' && c ≠ '?' && c ≠ '#' && c ≠ '\\'

def afterUserinfo (authority : List Char) : List Char :=
  (authority.reverse.takeWhile (· ≠ '@')).reverse

def host (rest : List Char) : List Char :=
  (afterUserinfo (authority rest)).takeWhile (· ≠ ':')

def AllowedHost (host : List Char) : Prop :=
  host = "localhost".toList ∨ host = "diamond.ac.uk".toList ∨
    ∃ sub, sub ≠ [] ∧ host = sub ++ ".diamond.ac.uk".toList

def AllowedUrl (url : String) : Prop :=
  ∃ rest, (url.toList = "http://".toList ++ rest ∨ url.toList = "https://".toList ++ rest) ∧
    AllowedHost (host rest)

/-- A pattern finds `name` in the URL as its host name, and `tail` follows. -/
def MatchedHost (url : String) (name tail : List Char) : Prop :=
  (url.toList = "https://".toList ++ (name ++ tail) ∧ name ∈ diamondHost.lang) ∨
    ((url.toList = "http://".toList ++ (name ++ tail) ∨
        url.toList = "https://".toList ++ (name ++ tail)) ∧ name = "localhost".toList)

/-- What follows a matched name ends the name or goes on to another allowed one. -/
def ContinuesSafely (tail : List Char) : Prop :=
  if '@' ∈ authority tail then AllowedHost (host tail)
  else (authority tail).takeWhile (· ≠ ':') = [] ∨
    ∃ sub, (authority tail).takeWhile (· ≠ ':') = sub ++ ".diamond.ac.uk".toList

end Urls

section Patterns

theorem mem_lang_diamondPattern_prefix {w : List Char} :
    diamondPattern.matchesPrefix w ↔
      ∃ name ∈ diamondHost.lang, ∃ tail, w = "https://".toList ++ (name ++ tail) := by
  rw [matchesPrefix_iff]
  simp only [diamondPattern, mem_lang_seq, mem_lang_word]
  constructor
  · rintro ⟨_, ⟨_, rfl, _, ⟨name, hname, slash, -, rfl⟩, rfl⟩, rest, rfl⟩
    exact ⟨name, hname, slash ++ rest, by simp only [List.append_assoc]⟩
  · rintro ⟨name, hname, tail, rfl⟩
    refine ⟨_, ⟨_, rfl, _, ⟨name, hname, [], .inr rfl, rfl⟩, rfl⟩, tail, ?_⟩
    simp only [List.append_assoc, List.append_nil]

theorem mem_lang_localhostPattern_prefix {decimal : Decimal.DecimalNumber} {w : List Char} :
    (localhostPattern decimal).matchesPrefix w ↔
      ∃ tail, w = "http://".toList ++ ("localhost".toList ++ tail) ∨
        w = "https://".toList ++ ("localhost".toList ++ tail) := by
  rw [matchesPrefix_iff]
  simp only [localhostPattern, mem_lang_seq, mem_lang_word]
  constructor
  · rintro ⟨_, ⟨_, rfl, _, ⟨s, hs, _, ⟨_, rfl, more, -, rfl⟩, rfl⟩, rfl⟩, rest, rfl⟩
    refine ⟨more ++ rest, ?_⟩
    obtain ⟨c, hc, rfl⟩ | rfl := hs
    · obtain rfl := of_decide_eq_true hc
      exact .inr (by simp)
    · exact .inl (by simp)
  · have hport : [] ∈ (seq (opt (seq (cls (· = ':')) (plus (cls decimal.isDecimal))))
        (opt (cls (· = '/')))).lang := ⟨[], .inr rfl, [], .inr rfl, rfl⟩
    rintro ⟨tail, rfl | rfl⟩
    · exact ⟨_, ⟨_, rfl, _, ⟨[], .inr rfl, _, ⟨_, rfl, [], hport, rfl⟩, rfl⟩, rfl⟩, tail, by simp⟩
    · exact ⟨_, ⟨_, rfl, _, ⟨['s'], .inl ⟨'s', rfl, rfl⟩, _, ⟨_, rfl, [], hport, rfl⟩, rfl⟩, rfl⟩,
        tail, by simp⟩

theorem validateReturnTo_eq_some_iff {decimal : Decimal.DecimalNumber} {returnTo : Option String}
    {url : String} :
    validateReturnTo (some (corsAllow decimal)) returnTo = some url ↔
      returnTo = some url ∧ ∃ name tail, MatchedHost url name tail := by
  cases returnTo with
  | none => simp [validateReturnTo]
  | some asked =>
    have hmatch : (corsAllow decimal).any (·.matchesPrefix asked.toList) ↔
        ∃ name tail, MatchedHost asked name tail := by
      simp only [corsAllow, List.any_cons, List.any_nil, Bool.or_false, Bool.or_eq_true,
        mem_lang_diamondPattern_prefix, mem_lang_localhostPattern_prefix, MatchedHost]
      constructor
      · rintro (⟨name, hname, tail, hasked⟩ | ⟨tail, hasked⟩)
        · exact ⟨name, tail, .inl ⟨hasked, hname⟩⟩
        · exact ⟨_, tail, .inr ⟨hasked, rfl⟩⟩
      · rintro ⟨name, tail, ⟨hasked, hname⟩ | ⟨hasked, rfl⟩⟩
        · exact .inl ⟨name, hname, tail, hasked⟩
        · exact .inr ⟨tail, hasked⟩
    rw [validateReturnTo]
    split_ifs with h
    · rw [Option.some.injEq]
      constructor
      · rintro rfl
        exact ⟨rfl, hmatch.mp h⟩
      · rintro ⟨rfl, -⟩
        rfl
    · refine iff_of_false (by simp) ?_
      rintro ⟨hasked, hmatched⟩
      exact h (hmatch.mpr (Option.some.inj hasked ▸ hmatched))

end Patterns

section Hosts

/-- The letters of the names that the patterns find. -/
def isHostChar (c : Char) : Bool := isLabelChar c || c = '.'

theorem isHostChar_ne {c d : Char} (h : isHostChar c) (hd : isHostChar d = false) : c ≠ d := by
  rintro rfl
  rw [h] at hd
  cases hd

/-- The labels in front of `diamond.ac.uk` are empty or end in a dot behind a label. -/
theorem mem_diamondHost {name : List Char} (h : name ∈ diamondHost.lang) :
    (∀ c ∈ name, isHostChar c) ∧
      (name = "diamond.ac.uk".toList ∨
        ∃ sub, sub ≠ [] ∧ name = sub ++ ".diamond.ac.uk".toList) := by
  obtain ⟨labels, ⟨blocks, rfl, hblocks⟩, _, hword, rfl⟩ := mem_lang_seq.mp h
  obtain rfl := mem_lang_word.mp hword
  have hblock : ∀ block ∈ blocks, ∃ label, label ≠ [] ∧ (∀ c ∈ label, isLabelChar c) ∧
      block = label ++ ['.'] := by
    intro block hmem
    obtain ⟨label, hlabel, _, ⟨dot, hdot, rfl⟩, rfl⟩ := mem_lang_seq.mp (hblocks block hmem)
    obtain ⟨hne, hall⟩ := mem_lang_plus_cls.mp hlabel
    obtain rfl := of_decide_eq_true hdot
    exact ⟨label, hne, hall, rfl⟩
  constructor
  · intro c hc
    obtain hc | hc := List.mem_append.mp hc
    · obtain ⟨block, hmem, hcb⟩ := List.mem_flatten.mp hc
      obtain ⟨label, -, hall, rfl⟩ := hblock block hmem
      obtain hcl | hcd := List.mem_append.mp hcb
      · simp [isHostChar, hall c hcl]
      · simp [isHostChar, List.mem_singleton.mp hcd]
    · have hword : "diamond.ac.uk".toList.all isHostChar := by decide +kernel
      exact List.all_eq_true.mp hword c hc
  · rcases List.eq_nil_or_concat' blocks with rfl | ⟨front, last, rfl⟩
    · exact .inl rfl
    · obtain ⟨label, hne, -, rfl⟩ := hblock last (by simp)
      refine .inr ⟨front.flatten ++ label, by simp [hne], ?_⟩
      simp [List.append_assoc]

theorem authority_append {name : List Char} (h : ∀ c ∈ name, isHostChar c) (tail : List Char) :
    authority (name ++ tail) = name ++ authority tail := by
  refine List.takeWhile_append_of_pos fun c hc => ?_
  have hne := fun d (hd : isHostChar d = false) => isHostChar_ne (h c hc) hd
  simp [hne '/' (by decide), hne '?' (by decide), hne '#' (by decide), hne '\\' (by decide)]

theorem afterUserinfo_of_not_mem {a : List Char} (h : '@' ∉ a) : afterUserinfo a = a := by
  rw [afterUserinfo, List.takeWhile_eq_self_iff.mpr, List.reverse_reverse]
  intro c hc
  have hne : c ≠ '@' := fun heq => h (heq ▸ List.mem_reverse.mp hc)
  simpa using hne

theorem afterUserinfo_append {name a : List Char} (h : '@' ∈ a) :
    afterUserinfo (name ++ a) = afterUserinfo a := by
  have hshort : (a.reverse.takeWhile (· ≠ '@')).length ≠ a.reverse.length := by
    intro hlength
    have heq := (List.takeWhile_prefix (· ≠ '@')).eq_of_length hlength
    have hat := List.takeWhile_eq_self_iff.mp heq '@' (List.mem_reverse.mpr h)
    simp at hat
  rw [afterUserinfo, List.reverse_append, List.takeWhile_append, if_neg hshort]
  rfl

theorem host_append {name : List Char} (h : ∀ c ∈ name, isHostChar c) (tail : List Char) :
    host (name ++ tail) =
      if '@' ∈ authority tail then host tail
      else name ++ (authority tail).takeWhile (· ≠ ':') := by
  rw [host, authority_append h]
  split_ifs with hat
  · rw [afterUserinfo_append hat]
    rfl
  · have hname : '@' ∉ name := fun hmem => isHostChar_ne (h _ hmem) (by decide) rfl
    rw [afterUserinfo_of_not_mem (by simp [hname, hat])]
    refine List.takeWhile_append_of_pos fun c hc => ?_
    simpa using isHostChar_ne (h c hc) (d := ':') (by decide)

/-- A suffix of an allowed name cannot begin the ending of another. -/
theorem suffix_of_append_eq {name more sub : List Char}
    (hname : ∀ z, z ≠ [] → z <:+ name → z <+: ".diamond.ac.uk".toList →
      z = ".diamond.ac.uk".toList)
    (h : name ++ more = sub ++ ".diamond.ac.uk".toList) :
    more = [] ∨ ∃ sub, more = sub ++ ".diamond.ac.uk".toList := by
  obtain ⟨z, rfl, hmore⟩ | ⟨z, rfl, hend⟩ := List.append_eq_append_iff.mp h
  · exact .inr ⟨z, hmore⟩
  · rcases eq_or_ne z [] with rfl | hz
    · exact .inr ⟨[], hend.symm⟩
    · have hwhole := hname z hz (List.suffix_append _ _) ⟨more, hend.symm⟩
      rw [hwhole] at hend
      exact .inl (List.append_right_eq_self.mp hend.symm)

theorem eq_of_overlap {ending front z : List Char}
    (hall : ∀ z ∈ ending.tails, z ≠ [] → z.isPrefixOf front → z = front) (hne : z ≠ [])
    (hsuffix : z <:+ ending) (hfront : z <+: front) : z = front :=
  hall z ((List.mem_tails _ _).mpr hsuffix) hne (List.isPrefixOf_iff_prefix.mpr hfront)

theorem overlap_diamond {z : List Char} (hne : z ≠ []) (hsuffix : z <:+ ".diamond.ac.uk".toList)
    (hfront : z <+: ".diamond.ac.uk".toList) : z = ".diamond.ac.uk".toList :=
  eq_of_overlap (by decide +kernel) hne hsuffix hfront

theorem overlap_localhost {z : List Char} (hne : z ≠ []) (hsuffix : z <:+ "localhost".toList)
    (hfront : z <+: ".diamond.ac.uk".toList) : z = ".diamond.ac.uk".toList :=
  eq_of_overlap (by decide +kernel) hne hsuffix hfront

theorem allowedHost_of_mem_diamondHost {name : List Char} (h : name ∈ diamondHost.lang) :
    AllowedHost name :=
  .inr (mem_diamondHost h).2

theorem dot_mem_of_mem_diamondHost {name : List Char} (h : name ∈ diamondHost.lang) :
    '.' ∈ name := by
  obtain rfl | ⟨sub, -, rfl⟩ := (mem_diamondHost h).2
  · decide +kernel
  · have hend : '.' ∈ ".diamond.ac.uk".toList := by decide +kernel
    exact List.mem_append_right _ hend

/-- Behind a matched name, a host is allowed when it stops there or ends as an allowed one does. -/
theorem allowedHost_append_iff {name : List Char}
    (hname : name = "localhost".toList ∨ name ∈ diamondHost.lang) (more : List Char) :
    AllowedHost (name ++ more) ↔ more = [] ∨ ∃ sub, more = sub ++ ".diamond.ac.uk".toList := by
  have hne : name ≠ [] := by
    rintro rfl
    obtain heq | hmem := hname
    · cases heq
    · obtain heq | ⟨sub, hsub, heq⟩ := (mem_diamondHost hmem).2
      · cases heq
      · exact hsub (List.append_eq_nil_iff.mp heq.symm).1
  constructor
  · rintro (hlocal | hdiamond | ⟨sub, -, hsub⟩)
    · obtain rfl | hmem := hname
      · exact .inl (List.append_right_eq_self.mp hlocal)
      · have hdot : '.' ∈ "localhost".toList := by
          rw [← hlocal]
          exact List.mem_append_left _ (dot_mem_of_mem_diamondHost hmem)
        exact absurd hdot (by decide +kernel)
    · obtain rfl | hmem := hname
      · exact absurd (congrArg List.head? hdiamond) (by simp)
      · obtain rfl | ⟨sub, -, rfl⟩ := (mem_diamondHost hmem).2
        · exact .inl (List.append_right_eq_self.mp hdiamond)
        · have hlength := congrArg List.length hdiamond
          simp only [List.length_append, String.length_toList] at hlength
          have hlong : ".diamond.ac.uk".length = 14 := rfl
          have hshort : "diamond.ac.uk".length = 13 := rfl
          omega
    · refine suffix_of_append_eq (fun z hz hsuffix hfront => ?_) hsub
      obtain rfl | hmem := hname
      · exact overlap_localhost hz hsuffix hfront
      · obtain rfl | ⟨front, -, rfl⟩ := (mem_diamondHost hmem).2
        · exact overlap_diamond hz (hsuffix.trans ⟨['.'], rfl⟩) hfront
        · have hend := List.suffix_of_suffix_length_le hsuffix (List.suffix_append _ _)
            hfront.length_le
          exact overlap_diamond hz hend hfront
  · rintro (rfl | ⟨sub, rfl⟩)
    · rw [List.append_nil]
      obtain rfl | hmem := hname
      · exact .inl rfl
      · exact allowedHost_of_mem_diamondHost hmem
    · exact .inr (.inr ⟨name ++ sub, by simp [hne], by simp only [List.append_assoc]⟩)

end Hosts

section Matched

variable {url : String} {name tail rest : List Char}

theorem allowedUrl_iff_of_scheme
    (h : url.toList = "http://".toList ++ rest ∨ url.toList = "https://".toList ++ rest) :
    AllowedUrl url ↔ AllowedHost (host rest) := by
  constructor
  · rintro ⟨other, hother, hallowed⟩
    have heq : other = rest := by
      obtain h | h := h <;> obtain hother | hother := hother <;> rw [h] at hother <;>
        simpa using hother.symm
    exact heq ▸ hallowed
  · intro hallowed
    exact ⟨rest, h, hallowed⟩

theorem allowedUrl_iff_continuesSafely (h : MatchedHost url name tail) :
    AllowedUrl url ↔ ContinuesSafely tail := by
  have hscheme : url.toList = "http://".toList ++ (name ++ tail) ∨
      url.toList = "https://".toList ++ (name ++ tail) := by
    obtain ⟨hurl, -⟩ | ⟨hurl, -⟩ := h
    · exact .inr hurl
    · exact hurl
  have hname : name = "localhost".toList ∨ name ∈ diamondHost.lang := by
    obtain ⟨-, hmem⟩ | ⟨-, hlocal⟩ := h
    · exact .inr hmem
    · exact .inl hlocal
  have hchars : ∀ c ∈ name, isHostChar c := by
    obtain rfl | hmem := hname
    · have hall : "localhost".toList.all isHostChar := by decide +kernel
      exact List.all_eq_true.mp hall
    · exact (mem_diamondHost hmem).1
  rw [allowedUrl_iff_of_scheme hscheme, host_append hchars, ContinuesSafely]
  split_ifs with hat
  · rfl
  · exact allowedHost_append_iff hname _

end Matched

section Runs

variable (decimal : Decimal.DecimalNumber) (defaultUrl : String) (headerValue : String → Bool)

/-- The patterns of the service's own configuration. -/
def gatewayConfig : GatewayConfig where
  callbackDefaultReturnToUrl := defaultUrl
  corsAllow := some (corsAllow decimal)

def AsksFor (urls : Set String) : LoginAction → Prop
  | .login _ _ (some url) => url ∈ urls
  | _ => True

/-- Whatever the order of logins and callbacks, no browser is sent to another site when the logins
only ask for these URLs. -/
def NoOpenRedirect (urls : Set String) : Prop :=
  ∀ s, Reaches (loginStep (gatewayConfig decimal defaultUrl) headerValue) (AsksFor urls) .init s →
    ∀ url ∈ s.redirects, url = defaultUrl ∨ AllowedUrl url

/-- A URL that a login asked for and a pattern found itself in. -/
def Accepted (urls : Set String) (url : String) : Prop :=
  url ∈ urls ∧ ∃ name tail, MatchedHost url name tail

structure LoginInv (urls : Set String) (s : Logins) : Prop where
  pending : ∀ n data url, s.pending n = some data → data.returnToUrl = some url →
    Accepted urls url
  redirects : ∀ url ∈ s.redirects, headerValue url ∧ (url = defaultUrl ∨ Accepted urls url)

variable {decimal defaultUrl headerValue} {urls : Set String} {s t : Logins}

theorem loginInv_init : LoginInv defaultUrl headerValue urls .init where
  pending _ _ _ hn := nomatch (show none = some _ from hn)
  redirects _ hurl := nomatch hurl

theorem LoginInv.setPending (h : LoginInv defaultUrl headerValue urls s) (n : Nat)
    (data : Option LoginSessionData)
    (hdata : ∀ d ∈ data, ∀ url, d.returnToUrl = some url → Accepted urls url) :
    LoginInv defaultUrl headerValue urls
      { s with pending := Function.update s.pending n data } where
  pending m d url hm hurl := by
    rcases eq_or_ne m n with rfl | hmn
    · simp only [Function.update_self] at hm
      exact hdata d hm url hurl
    · simp only [Function.update_of_ne hmn] at hm
      exact h.pending m d url hm hurl
  redirects := h.redirects

theorem callback_eq_ok {config : GatewayConfig} {data : Option LoginSessionData} {state : String}
    {completed : Except String Unit} {url : String}
    (h : callback config data state completed = .ok url) :
    ∃ d, data = some d ∧ url = d.returnToUrl.getD config.callbackDefaultReturnToUrl := by
  cases data with
  | none => cases h
  | some d =>
    simp only [callback] at h
    split_ifs at h
    cases completed with
    | error e => cases h
    | ok u =>
      cases h
      exact ⟨d, rfl, rfl⟩

theorem loginInv_step {a : LoginAction} (h : LoginInv defaultUrl headerValue urls s)
    (ha : AsksFor urls a)
    (hstep : loginStep (gatewayConfig decimal defaultUrl) headerValue s a = some t) :
    LoginInv defaultUrl headerValue urls t := by
  cases a with
  | login n challenge returnTo =>
    cases hstep
    refine h.setPending n _ fun d hd url hurl => ?_
    obtain rfl := Option.some.inj hd
    obtain ⟨rfl, hmatched⟩ := validateReturnTo_eq_some_iff.mp hurl
    exact ⟨ha, hmatched⟩
  | callback n state completed =>
    simp only [loginStep] at hstep
    split at hstep
    next =>
      cases hstep
      exact h
    next url hok =>
      cases hstep
      obtain ⟨d, hd, hurl⟩ := callback_eq_ok hok
      refine ⟨(h.setPending n none fun d hd => nomatch hd).pending, ?_⟩
      split_ifs with hvalid
      · refine List.forall_mem_append.mpr ⟨h.redirects, List.forall_mem_singleton.mpr ?_⟩
        refine ⟨hvalid, ?_⟩
        cases hreturn : d.returnToUrl with
        | none =>
          rw [hreturn] at hurl
          exact .inl hurl
        | some asked =>
          rw [hreturn] at hurl
          exact .inr (hurl ▸ h.pending n d asked hd hreturn)
      · exact h.redirects
  | expire n =>
    cases hstep
    exact h.setPending n none fun d hd => nomatch hd

variable (decimal defaultUrl) in
/-- A login for an accepted URL and its callback send the browser there. -/
theorem redirects_of_accepted {url : String} (h : Accepted urls url) (hvalid : headerValue url) :
    ∃ s, Reaches (loginStep (gatewayConfig decimal defaultUrl) headerValue) (AsksFor urls) .init s ∧
      url ∈ s.redirects := by
  obtain ⟨hmem, hmatched⟩ := h
  have hasked : validateReturnTo (some (corsAllow decimal)) (some url) = some url :=
    validateReturnTo_eq_some_iff.mpr ⟨rfl, hmatched⟩
  refine ⟨_, ⟨[.login 0 ⟨"csrf", "verifier", "nonce"⟩ (some url), .callback 0 "csrf" (.ok ())],
    ?_, rfl⟩, ?_⟩
  · intro a ha
    obtain rfl | ha := List.mem_cons.mp ha
    · exact hmem
    · rw [List.mem_singleton.mp ha]
      exact trivial
  · simp [login, gatewayConfig, hasked, hvalid]

theorem continuesSafely_of_noOpenRedirect
    (h : NoOpenRedirect decimal defaultUrl headerValue urls) {url : String} (hmem : url ∈ urls)
    (hvalid : headerValue url) (hne : url ≠ defaultUrl) {name tail : List Char}
    (hmatched : MatchedHost url name tail) : ContinuesSafely tail := by
  obtain ⟨s, hs, hredirect⟩ := redirects_of_accepted decimal defaultUrl
    ⟨hmem, name, tail, hmatched⟩ hvalid
  obtain heq | hallowed := h s hs url hredirect
  · exact absurd heq hne
  · exact (allowedUrl_iff_continuesSafely hmatched).mp hallowed

/-- No login redirects to another site exactly when every accepted URL, other than the default one,
goes on safely behind the host name that a pattern found in it. -/
theorem noOpenRedirect_iff :
    NoOpenRedirect decimal defaultUrl headerValue urls ↔
      ∀ url ∈ urls, headerValue url → url ≠ defaultUrl → ∀ name tail, MatchedHost url name tail →
        ContinuesSafely tail := by
  constructor
  · intro h url hmem hvalid hne name tail hmatched
    exact continuesSafely_of_noOpenRedirect h hmem hvalid hne hmatched
  · intro h s hs url hredirect
    have hinv : LoginInv defaultUrl headerValue urls s :=
      hs.invariant (fun _ _ _ hInv ha hstep => loginInv_step hInv ha hstep)
        loginInv_init
    obtain ⟨hvalid, heq | ⟨hmem, name, tail, hmatched⟩⟩ := hinv.redirects url hredirect
    · exact .inl heq
    · by_cases hne : url = defaultUrl
      · exact .inl hne
      · exact .inr ((allowedUrl_iff_continuesSafely hmatched).mpr
          (h url hmem hvalid hne name tail hmatched))

end Runs

def isHeaderValue (url : String) : Bool :=
  url.toList.all fun c => c = '\t' || 32 ≤ c.toNat && c.toNat ≠ 127

theorem not_noOpenRedirect :
    ¬NoOpenRedirect .ofAscii "http://localhost:5174" isHeaderValue Set.univ := by
  intro h
  have hmatched : MatchedHost "https://diamond.ac.uk.evil.com/" "diamond.ac.uk".toList
      ".evil.com/".toList :=
    .inl ⟨by decide +kernel, [], Language.nil_mem_kstar _, _, mem_lang_word.mpr rfl, rfl⟩
  have hsafe := continuesSafely_of_noOpenRedirect h trivial (by decide +kernel)
    (by decide +kernel) hmatched
  have hauthority : authority ".evil.com/".toList = ".evil.com".toList := by decide +kernel
  have hname : ".evil.com".toList.takeWhile (· ≠ ':') = ".evil.com".toList := by decide +kernel
  rw [ContinuesSafely, hauthority, if_neg (by decide +kernel), hname] at hsafe
  obtain hempty | ⟨sub, hsub⟩ := hsafe
  · exact absurd hempty (by decide +kernel)
  · have hlength := congrArg List.length hsub
    simp only [List.length_append, String.length_toList] at hlength
    have hlong : ".diamond.ac.uk".length = 14 := rfl
    have hshort : ".evil.com".length = 9 := rfl
    omega

end Workflows.Auth
