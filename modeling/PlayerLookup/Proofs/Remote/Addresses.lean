import PlayerLookup.Proofs.Remote.Requests
import PlayerLookup.Proofs.Template.Widths

/-! The addresses of histories. A template is accepted if the field for an id stands in it as a
piece of text; what the address is depends on how the template is taken apart. If the field is one
of its pieces, the digits of the id stand in the address. If in addition no layout has fields of its
own, and the parts of texts that fields step into are even, either no id has an address or each has
its own. -/

set_option autoImplicit false

namespace PlayerLookup

namespace Text

theorem infix_of_holdsWord {word cs : List Char} (h : holdsWord word cs = true) : word <:+: cs := by
  induction cs with
  | nil =>
    rw [holdsWord, List.isEmpty_iff] at h
    rw [h]
  | cons c rest ih =>
    rw [holdsWord, Bool.or_eq_true, List.isPrefixOf_iff_prefix] at h
    rcases h with h | h
    · exact h.isInfix
    · exact (ih h).trans (List.suffix_cons c rest).isInfix

end Text

/-! ## Templates with the field for an id -/

namespace Template

def Braceless (cs : List Char) : Prop := ∀ c ∈ cs, c ≠ '\x7b' ∧ c ≠ '\x7d'

variable {parts : Parts} {before after : List Char}

theorem text_bareField (parts : Parts) (v : List Char) (depth : Nat) :
    (bareField "uuid").text parts [("uuid", v)] depth = .ok v := rfl

theorem Braceless.takeWhile_append (h : Braceless before) (after : List Char) :
    ((before ++ after).takeWhile fun c => !(c == '\x7b' || c == '\x7d')) =
      before ++ after.takeWhile fun c => !(c == '\x7b' || c == '\x7d') :=
  List.takeWhile_append_of_pos fun c hc => by simp [h c hc]

theorem Braceless.dropWhile_append (h : Braceless before) (after : List Char) :
    ((before ++ after).dropWhile fun c => !(c == '\x7b' || c == '\x7d')) =
      after.dropWhile fun c => !(c == '\x7b' || c == '\x7d') :=
  List.dropWhile_append_of_pos fun c hc => by simp [h c hc]

theorem pieces_idField (h : Braceless before) (fuel : Nat) :
    pieces (fuel + 1) (before ++ (RemoteSettings.idField.toList ++ after)) =
      .literal before :: bareField "uuid" :: pieces fuel after := by
  rw [pieces]
  dsimp only
  rw [h.takeWhile_append, h.dropWhile_append]
  have hfield : RemoteSettings.idField.toList ++ after =
      '\x7b' :: 'u' :: ("uid\x7d".toList ++ after) := rfl
  rw [hfield, List.takeWhile_cons_of_neg (by decide), List.dropWhile_cons_of_neg (by decide),
    List.append_nil]
  rfl

theorem pieces_braceless (h : Braceless after) (fuel : Nat) :
    pieces (fuel + 1) after = if after = [] then [] else [.literal after] := by
  have htake := h.takeWhile_append []
  have hdrop := h.dropWhile_append []
  rw [List.append_nil, List.takeWhile_nil, List.append_nil] at htake
  rw [List.append_nil, List.dropWhile_nil] at hdrop
  rw [pieces]
  dsimp only
  rw [htake, hdrop]

/-- A template whose only braces are those of the field comes to the text before it, the value and
the text after it. -/
theorem fill_idField (parts : Parts) (hbefore : Braceless before) (hafter : Braceless after)
    (v : List Char) (depth : Nat) :
    fill parts [("uuid", v)] (depth + 1) (before ++ (RemoteSettings.idField.toList ++ after)) =
      .ok (before ++ (v ++ after)) := by
  have hrest : ∃ n, (before ++ (RemoteSettings.idField.toList ++ after)).length = n + 1 := by
    refine Nat.exists_eq_add_one.mpr ?_
    simp [RemoteSettings.idField]
  obtain ⟨n, hn⟩ := hrest
  rw [fill_succ, ofText, pieces_idField hbefore, hn, pieces_braceless hafter, List.mapM_cons,
    List.mapM_cons, text_bareField]
  split
  · next hnil =>
    rw [hnil]
    rfl
  · simp [Piece.text, Except.map, bind, Except.bind, pure, Except.pure]

end Template

/-! ## Accepted templates -/

namespace RemoteSettings

/-- The settings are made from what was given, so it was accepted. -/
def Accepted (s : RemoteSettings) : Prop :=
  ∃ agent profilesUrl historyUrl retries retryDelay timeout,
    make agent profilesUrl historyUrl retries retryDelay timeout = .ok s

/-- What stands before the field for an id in the template, and after it. -/
def Around (s : RemoteSettings) (before after : List Char) : Prop :=
  s.historyUrl.toList = before ++ (idField.toList ++ after)

/-- The field for an id is one of the pieces of the template. -/
def PutsId (s : RemoteSettings) : Prop :=
  Template.bareField "uuid" ∈ Template.ofText s.historyUrl.toList

variable {s : RemoteSettings} {before after : List Char}

theorem contains_of_make {agent profilesUrl historyUrl : String} {retries : Int}
    {retryDelay : Amount} {timeout : Option Amount}
    (h : make agent profilesUrl historyUrl retries retryDelay timeout = .ok s) :
    Text.contains s.historyUrl idField = true := by
  rw [make] at h
  by_cases hagent : agent = ""
  · rw [if_pos hagent] at h
    cases h
  rw [if_neg hagent] at h
  generalize (if historyUrl = "" then defaultHistoryUrl else historyUrl) = template at h
  by_cases hid : Text.contains template idField = true
  · rw [if_neg (by simp [hid])] at h
    obtain ⟨n, -, h⟩ := exists_of_bind_eq_ok h
    obtain ⟨d, -, h⟩ := exists_of_bind_eq_ok h
    obtain ⟨t, -, h⟩ := exists_of_bind_eq_ok h
    obtain rfl := Except.ok.inj h
    exact hid
  · rw [if_pos (by simp [hid])] at h
    cases h

theorem Accepted.exists_around (h : s.Accepted) : ∃ before after, s.Around before after := by
  obtain ⟨_, _, _, _, _, _, hmake⟩ := h
  obtain ⟨before, after, hsplit⟩ := Text.infix_of_holdsWord (contains_of_make hmake)
  refine ⟨before, after, ?_⟩
  rw [Around, ← hsplit, List.append_assoc]

theorem Around.putsId (h : s.Around before after) (hbefore : Template.Braceless before) :
    s.PutsId := by
  rw [PutsId, h, Template.ofText, Template.pieces_idField hbefore]
  exact List.mem_cons_of_mem _ List.mem_cons_self

end RemoteSettings

/-! ## Addresses -/

namespace Remote

variable {σ : Type}

/-- The id has an address, its digits stand in it, and it is what a lookup of the id asks for. -/
structure Reaches (r : Remote σ) (id : PlayerId) (url : String) : Prop where
  url_eq : r.historyUrl id = .ok url
  has_digits : id.digits <:+: url.toList
  asks : r.AsksOnce (.history url) (r.queryId id)

/-- The id has no address, and a lookup of it fails and asks for nothing. -/
structure Misses (r : Remote σ) (id : PlayerId) (fault : Template.Fault) : Prop where
  url_eq : r.historyUrl id = .error (.template fault)
  run_eq : ∀ s, (r.queryId id).run s = ⟨[], s, .error (.template fault)⟩

variable {r : Remote σ} {id : PlayerId} {url : String}

theorem misses_of_historyUrl {fault : Template.Fault}
    (h : r.historyUrl id = .error (.template fault)) : r.Misses id fault where
  url_eq := h
  run_eq := queryId_run_error (by rw [historyRequest, h]; rfl)

abbrev filled (r : Remote σ) (id : PlayerId) : Except Template.Fault (List Char) :=
  Template.fill r.platform.parts [("uuid", id.digits)] 2 r.settings.historyUrl.toList

theorem historyUrl_eq (r : Remote σ) (id : PlayerId) :
    r.historyUrl id = ((r.filled id).map String.ofList).mapError .template := by
  rw [historyUrl, Template.fillIn, filled]
  cases Template.fill r.platform.parts [("uuid", id.digits)] 2 r.settings.historyUrl.toList <;> rfl

theorem reaches_of_putsId (h : r.settings.PutsId) (hurl : r.historyUrl id = .ok url) :
    r.Reaches id url where
  url_eq := hurl
  has_digits := by
    rw [historyUrl_eq] at hurl
    cases hfill : r.filled id with
    | error fault =>
      rw [hfill] at hurl
      cases hurl
    | ok text =>
      rw [hfill] at hurl
      obtain rfl := Except.ok.inj hurl
      rw [String.toList_ofList]
      exact Template.infix_fill hfill h (Template.text_bareField _ id.digits 1)
  asks := asksOnce_queryId (by rw [historyRequest, hurl]; rfl)

/-- No id has an address, or each has its own. -/
def MissesAllOrTellsApart (r : Remote σ) : Prop :=
  (∃ fault, ∀ id, r.Misses id fault) ∨
    ∃ url : PlayerId → String, Function.Injective url ∧ ∀ id, r.Reaches id (url id)

theorem alike_digits (id id' : PlayerId) : Template.Alike id.digits id'.digits where
  length_eq := (PlayerId.length_digits id).trans (PlayerId.length_digits id').symm
  left _ := PlayerId.isHexDigit_of_mem_digits
  right _ := PlayerId.isHexDigit_of_mem_digits

theorem missesAllOrTellsApart (h : r.settings.PutsId)
    (hflat : Template.Flat r.platform.parts r.settings.historyUrl.toList) :
    r.MissesAllOrTellsApart := by
  have hagree : ∀ id id' : PlayerId, Agree (fun a b => a = b → id.digits = id'.digits)
      (r.filled id) (r.filled id') := fun id id' =>
    hflat.agree_fill (alike_digits id id') h (Template.text_bareField _ id.digits 1)
      (Template.text_bareField _ id'.digits 1)
  -- How the template goes for one id is how it goes for all.
  obtain ⟨fault, hfault⟩ | ⟨text, htext, hapart⟩ := Agree.all_fail_or_all_ok ⟨0⟩ hagree
  · refine Or.inl ⟨fault, fun id => misses_of_historyUrl ?_⟩
    rw [historyUrl_eq, hfault]
    rfl
  · refine Or.inr ⟨fun id => String.ofList (text id), fun id id' heq => ?_, fun id => ?_⟩
    · exact PlayerId.digits_injective (hapart id id' (String.ofList_injective heq))
    · refine reaches_of_putsId h ?_
      rw [historyUrl_eq, htext]
      rfl

theorem reaches_of_around {before after : List Char} (h : r.settings.Around before after)
    (hbefore : Template.Braceless before) (hafter : Template.Braceless after) (id : PlayerId) :
    r.Reaches id (String.ofList (before ++ (id.digits ++ after))) := by
  refine reaches_of_putsId (h.putsId hbefore) ?_
  rw [historyUrl_eq, filled, h, Template.fill_idField _ hbefore hafter]
  rfl

end Remote

/-- **Addresses of histories tell ids apart, where the field for the id is read as one.** An
accepted template has the field as a piece of its text. If no brace stands before it, it is read as
a field, and if none stands after it either, every id has an address, with its digits in the place
of the field. In general, if it is read as a field, a lookup that comes to an address asks there,
and the digits of the id stand in it; and unless some layout has fields of its own, or some field
steps into parts of texts that are not even, either the template is at fault in the same way for all
ids, or each has an address that is no other's. -/
theorem history_addresses_tell_ids_apart {σ : Type} (r : Remote σ) (h : r.settings.Accepted) :
    (∃ before after, r.settings.Around before after) ∧
      (∀ before after, r.settings.Around before after → Template.Braceless before →
        r.settings.PutsId ∧ (Template.Braceless after →
          ∀ id, r.Reaches id (String.ofList (before ++ (id.digits ++ after))))) ∧
      (r.settings.PutsId → (∀ id url, r.historyUrl id = .ok url → r.Reaches id url) ∧
        (Template.Flat r.platform.parts r.settings.historyUrl.toList →
          r.MissesAllOrTellsApart)) :=
  ⟨h.exists_around,
    fun _ _ haround hbefore => ⟨haround.putsId hbefore, Remote.reaches_of_around haround hbefore⟩,
    fun hputs => ⟨fun _ _ => Remote.reaches_of_putsId hputs, Remote.missesAllOrTellsApart hputs⟩⟩

/-! ## A template with more than the field, and two that are misread -/

namespace Remote

/-- A remote service with the given template for the addresses of histories. -/
def withTemplate (template : String) : Remote Unit where
  settings :=
    ⟨"minecraft", "https://api.mojang.com/profiles/minecraft", template, 0, .whole 0, none⟩
  send _ := return .holding (.list [])
  cancelled? := none
  platform := .machine Template.noParts

theorem accepted_withTemplate {template : String}
    (h : Text.contains template RemoteSettings.idField = true) (hne : template ≠ "") :
    (withTemplate template).settings.Accepted := by
  refine ⟨"minecraft", "", template, 0, .whole 0, none, ?_⟩
  rw [RemoteSettings.make, if_neg (by decide), if_neg hne]
  dsimp only
  rw [if_neg (by simp [h])]
  rfl

/-- Doubled braces, the field for the id, and the id once more in a wider layout. -/
def wide : Remote Unit :=
  withTemplate "https://host/\x7b\x7bv1\x7d\x7d/\x7buuid\x7d?q=\x7buuid:>40\x7d"

/-- The field for the id in doubled braces, which make it text. -/
def escaped : Remote Unit := withTemplate "https://host/\x7b\x7buuid\x7d\x7d"

/-- The field for the id and one for which there is no value. -/
def faulty : Remote Unit := withTemplate "https://host/\x7buuid\x7d/\x7b0\x7d"

end Remote

theorem history_addresses_tell_ids_apart_wide :
    Remote.wide.settings.Accepted ∧ Remote.wide.settings.PutsId ∧
      Template.Flat Remote.wide.platform.parts Remote.wide.settings.historyUrl.toList ∧
      ∃ url : PlayerId → String, Function.Injective url ∧
        ∀ id, Remote.wide.Reaches id (url id) := by
  have haccepted : Remote.wide.settings.Accepted := Remote.accepted_withTemplate rfl (by decide)
  have hpieces : Template.ofText Remote.wide.settings.historyUrl.toList =
      [.literal "https://host/\x7b".toList, .literal "v1\x7d".toList, .literal ['/'],
        Template.bareField "uuid", .literal "?q=".toList,
        .field ⟨"uuid".toList, none, ">40".toList, false⟩] := by rfl
  have hputs : Remote.wide.settings.PutsId := by
    rw [RemoteSettings.PutsId, hpieces]
    decide
  have hfields : ∀ f, .field f ∈ Template.ofText Remote.wide.settings.historyUrl.toList →
      f.nested = false ∧ '.' ∉ f.name := by
    intro f hf
    rw [hpieces] at hf
    simp only [Template.bareField, List.mem_cons, List.not_mem_nil, or_false, reduceCtorEq,
      false_or, Template.Piece.field.injEq] at hf
    rcases hf with rfl | rfl <;> exact ⟨rfl, by decide⟩
  have hflat : Template.Flat Remote.wide.platform.parts Remote.wide.settings.historyUrl.toList :=
    ⟨fun f hf => (hfields f hf).1,
      fun f hf => Template.Parts.evenIn_of_no_point _ (hfields f hf).2⟩
  refine ⟨haccepted, hputs, hflat, ?_⟩
  obtain ⟨fault, hmisses⟩ | hapart :=
    ((history_addresses_tell_ids_apart Remote.wide haccepted).2.2 hputs).2 hflat
  · have hreached : ∃ url, Remote.wide.historyUrl ⟨1⟩ = .ok url := ⟨_, rfl⟩
    obtain ⟨url, hurl⟩ := hreached
    rw [(hmisses ⟨1⟩).url_eq] at hurl
    cases hurl
  · exact hapart

/-- Both of these templates are accepted. With the one, two ids have the same address, and the
digits of an id do not stand in it; with the other, the lookup of an id fails before it asks for
anything. -/
theorem misread_templates_are_accepted :
    Remote.escaped.settings.Accepted ∧
      Remote.escaped.historyUrl ⟨1⟩ = .ok "https://host/\x7buuid\x7d" ∧
      Remote.escaped.historyUrl ⟨2⟩ = .ok "https://host/\x7buuid\x7d" ∧
      ¬ (⟨1⟩ : PlayerId).digits <:+: "https://host/\x7buuid\x7d".toList ∧
      Remote.faulty.settings.Accepted ∧
      (Remote.faulty.queryId ⟨1⟩).run () = ⟨[], (), .error (.template (.position 0))⟩ :=
  ⟨Remote.accepted_withTemplate rfl (by decide), rfl, rfl, by decide +kernel,
    Remote.accepted_withTemplate rfl (by decide), rfl⟩

end PlayerLookup
