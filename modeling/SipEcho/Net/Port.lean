import SipEcho.Sip.Aor

/-!
`net_port`: the port of a URI that gives none, as `contact_compare` takes it to compare addresses
and `sip_relay` to dial a contact.

* `defaultPort`: the port of a scheme, 5060 for `sip` and 5061 for `sips`;
* `netPort_of_scheme`: the tests of `net_port2` are the wrong way round;
* `defaultPort_iff`: the port is that of the scheme, and addresses compare by it, exactly when
  there is no scheme at all;
* `sip_port_differs`, `registered_form_lost`: a `sip` address without a port differs from the same
  address with 5060, and who is registered as the one is not found as the other.
-/

namespace SipEcho

/-- The port of a scheme, in any case; `0` for none. -/
def defaultPort (scheme : Option Str) : ℤ :=
  match scheme with
  | none => 0
  | some scheme =>
      if strcasecmp (str "SIP") scheme = 0 then 5060
      else if strcasecmp (str "SIPS") scheme = 0 then 5061
      else 0

/-- The scheme is `sip`. -/
def Uri.Sip (u : Uri) : Prop := ∃ scheme, u.scheme = some scheme ∧ strcasecmp (str "SIP") scheme = 0

/-- The address with another port. -/
def From.withPort (f : From) (port : Option Str) : From :=
  { f with url := f.url.map fun u => { u with port } }

/-- What a URI without a port is taken for: the port is that of its scheme; with the scheme `sip`
an address with this URI equals the same address with port 5060, and a name registered in one of
the two forms is found in the other. -/
structure DefaultPort (u : Uri) : Prop where
  port : netPort (some u) = defaultPort u.scheme
  same : u.Sip → ∀ f : From, f.url = some u →
    contactCompare f (f.withPort (some (str "5060"))) = 0
  found : u.Sip → ∀ f : From, f.url = some u → f.named = true →
    ∀ (aors : Map Aor) (l : List ℕ), AorStore aors l → ∀ a ∈ l,
      ((aors.heap a).item.name = f →
        ∃ aor, aorFind aors (some (f.withPort (some (str "5060")))) = some aor) ∧
      ((aors.heap a).item.name = f.withPort (some (str "5060")) →
        ∃ aor, aorFind aors (some f) = some aor)

/-- **The tests of `net_port2` are the wrong way round**: `sip` is given 5061, and every other
scheme 5060. -/
lemma netPort_of_scheme {u : Uri} {scheme : Str} (hport : u.port = none)
    (hscheme : u.scheme = some scheme) :
    netPort (some u) = if strcasecmp (str "SIP") scheme ≠ 0 then 5060
      else if strcasecmp (str "SIPS") scheme ≠ 0 then 5061 else 0 := by
  show netPort2 u.scheme u.port = _
  rw [hport, hscheme]
  rfl

/-- No scheme is given its own port. -/
lemma netPort_ne_defaultPort {u : Uri} {scheme : Str} (hport : u.port = none)
    (hscheme : u.scheme = some scheme) : netPort (some u) ≠ defaultPort u.scheme := by
  rw [netPort_of_scheme hport hscheme, hscheme, defaultPort]
  split_ifs <;> simp_all

/-- **Default ports**: a URI without a port is taken for what its scheme says exactly when it has
no scheme. -/
theorem defaultPort_iff (u : Uri) :
    DefaultPort { u with port := none } ↔ u.scheme = none := by
  constructor
  · intro h
    cases hscheme : u.scheme with
    | none => rfl
    | some scheme => exact absurd h.port (netPort_ne_defaultPort rfl hscheme)
  · intro hscheme
    have hsip : ¬ Uri.Sip { u with port := none } := by
      rintro ⟨scheme, h, -⟩
      rw [show (({ u with port := none } : Uri)).scheme = u.scheme from rfl, hscheme] at h
      exact absurd h (by simp)
    refine ⟨?_, fun h => absurd h hsip, fun h => absurd h hsip⟩
    show netPort2 u.scheme none = defaultPort u.scheme
    rw [hscheme]
    rfl

/-- A `sip` address without a port differs from the same address with port 5060. -/
lemma sip_port_differs {f : From} {u : Uri} (hurl : f.url = some u) (hport : u.port = none)
    (hsip : u.Sip) : contactCompare f (f.withPort (some (str "5060"))) ≠ 0 := by
  obtain ⟨scheme, hscheme, h0⟩ := hsip
  have hself : ∀ s : Str, strcasecmp s s = 0 := strcmpBy_self
  have hurl' :
      (f.withPort (some (str "5060"))).url = some { u with port := some (str "5060") } := by
    rw [From.withPort, hurl]
    rfl
  have h5060 : netPort (some { u with port := some (str "5060") }) = 5060 := by
    show atoi (str "5060") = 5060
    decide
  have hne : netPort f.url - netPort (f.withPort (some (str "5060"))).url ≠ 0 := by
    rw [hurl', h5060, hurl, netPort_of_scheme hport hscheme, if_neg (not_not.mpr h0)]
    split_ifs <;> decide
  rw [contactCompare_eq]
  simp only [From.scheme, From.host, hurl, hurl', Option.bind_some, hself, if_true] at hne ⊢
  rwa [if_neg hne]

/-- **Who is registered without a port is not found with port 5060.** -/
theorem registered_form_lost {aors : Map Aor} {a : ℕ} (h : AorStore aors [a]) {u : Uri}
    (hurl : (aors.heap a).item.name.url = some u) (hport : u.port = none) (hsip : u.Sip) :
    aorFind aors (some ((aors.heap a).item.name.withPort (some (str "5060")))) = none := by
  have hne := sip_port_differs hurl hport hsip
  cases hfind : aorFind aors (some ((aors.heap a).item.name.withPort (some (str "5060")))) with
  | none => rfl
  | some aor =>
      obtain ⟨hzero, b, hb, rfl⟩ := h.found _ _ hfind
      rw [List.mem_singleton.mp hb] at hzero
      exact absurd (contactCompare_comparator.eq_symm hzero) hne

/-- `sip:a@h` is given 5061, differs from `sip:a@h:5060`, and a store that holds the one does not
find the other. -/
theorem sip_default_port :
    ¬ DefaultPort (sipUri "a" "h" []) ∧
    netPort (some (sipUri "a" "h" [])) = 5061 ∧
    contactCompare { url := some (sipUri "a" "h" []) }
      { url := some { sipUri "a" "h" [] with port := some (str "5060") } } ≠ 0 ∧
    storedAndFound (aorRun threeNames aorInit [pushName "<sip:a@h>"])
      { url := some { sipUri "a" "h" [] with port := some (str "5060") } } = some (1, false) := by
  refine ⟨fun h => absurd h.port (by decide), by decide, by decide, by decide +kernel⟩

end SipEcho
