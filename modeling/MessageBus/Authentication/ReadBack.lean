import Mathlib.Data.List.TakeDrop
import MessageBus.Authentication.ConnectionString

/-!
# Connection strings read back

What the server's `Parse` makes of the connection string that a client writes. Every part
is split at its first equals sign only, so that a value may contain one; a semicolon in a
value ends its part.
-/

namespace MessageBus.Authentication
open MessageBus.Base MessageBus.Common

/-! ### Joining and splitting -/

/-- The text of a field. -/
def fieldText (field : String × String) : String := field.1 ++ "=" ++ field.2

private theorem notMem_of_mem_splitOn {α : Type} [BEq α] [LawfulBEq α] {a : α} {xs l : List α}
    (h : l ∈ xs.splitOn a) : a ∉ l := by
  induction xs generalizing l with
  | nil =>
    rw [List.splitOn_nil, List.mem_singleton] at h
    rw [h]
    exact List.not_mem_nil
  | cons x xs ih =>
    rw [List.splitOn_cons_eq_if_modifyHead] at h
    split at h
    · rcases List.mem_cons.mp h with rfl | h
      · exact List.not_mem_nil
      · exact ih h
    · next hx =>
      cases hs : xs.splitOn a with
      | nil => exact absurd hs (List.splitOn_ne_nil a xs)
      | cons first rest =>
        rw [hs, List.modifyHead_cons] at h
        rcases List.mem_cons.mp h with rfl | h
        · have hfirst : a ∉ first := ih (hs ▸ List.mem_cons_self ..)
          simp only [List.mem_cons, not_or]
          exact ⟨fun ha => hx (beq_iff_eq.mpr ha.symm), hfirst⟩
        · exact ih (hs ▸ List.mem_cons_of_mem _ h)

/-- Splitting at the separator inverts joining by it where no text contains it. -/
theorem splitParts_of_join {s : String} {texts : List String} (hne : texts ≠ [])
    (hs : s.toList = [';'].intercalate (texts.map String.toList))
    (hsep : ∀ text ∈ texts, ';' ∉ text.toList) : splitParts s = texts := by
  have hsplit : s.toList.splitOn ';' = texts.map String.toList := by
    rw [hs]
    apply List.splitOn_intercalate
    · intro l hl
      obtain ⟨text, ht, rfl⟩ := List.mem_map.mp hl
      exact hsep text ht
    · simpa using hne
  rw [splitParts, hsplit, List.map_map]
  have hid : String.ofList ∘ String.toList = id := funext fun text => String.ofList_toList
  rw [hid, List.map_id]

/-- A field is split into its name and its value, whatever the value. -/
theorem splitPart_fieldText {field : String × String} (h : '=' ∉ field.1.toList) :
    splitPart (fieldText field) = [field.1, field.2] := by
  have htext : (fieldText field).toList = field.1.toList ++ '=' :: field.2.toList := by
    simp [fieldText]
  have hspan : (fieldText field).toList.span (· ≠ '=') =
      (field.1.toList, '=' :: field.2.toList) := by
    rw [htext, List.span_eq_takeWhile_dropWhile]
    have hall : ∀ c ∈ field.1.toList, decide (c ≠ '=') = true := by
      intro c hc
      exact decide_eq_true fun he => h (he ▸ hc)
    rw [List.takeWhile_append_of_pos hall, List.dropWhile_append_of_pos hall]
    simp
  rw [splitPart]
  simp only [hspan, String.ofList_toList]

/-! ### The dictionary of a connection string -/

/-- Fields with distinct names make a dictionary in which each is found. -/
theorem toDictionary_fields (fields : List (String × String)) {dict : Dictionary String String}
    (hnodup : (fields.map Prod.fst).Nodup)
    (hnew : ∀ name ∈ fields.map Prod.fst, dict.lookup name = none) :
    ∃ dict', toDictionary (fields.map fun field => [field.1, field.2]) dict = .ok dict' ∧
      ∀ name, dict'.lookup name = (fields.lookup name).or (dict.lookup name) := by
  induction fields generalizing dict with
  | nil => exact ⟨dict, rfl, fun _ => rfl⟩
  | cons field fields ih =>
    obtain ⟨key, value⟩ := field
    rw [List.map_cons] at hnodup hnew
    obtain ⟨hkey, hnodup⟩ := List.nodup_cons.mp hnodup
    obtain ⟨hnone, hnew⟩ := List.forall_mem_cons.mp hnew
    have hnew' : ∀ name ∈ fields.map Prod.fst, (dict.insert key value).lookup name = none := by
      intro name hname
      have hne : name ≠ key := fun h => hkey (h ▸ hname)
      rw [Dictionary.lookup_insert, if_neg hne]
      exact hnew name hname
    obtain ⟨dict', hdict', hlookup⟩ := ih hnodup hnew'
    refine ⟨dict', ?_, ?_⟩
    · rw [List.map_cons, toDictionary, hnone]
      exact hdict'
    · intro name
      rw [hlookup, Dictionary.lookup_insert, List.lookup_cons]
      by_cases hname : name = key
      · have habsent : fields.lookup key = none := by
          rw [List.lookup_eq_none_iff]
          intro x hx
          exact bne_iff_ne.mpr fun h => hkey (List.mem_map.mpr ⟨x, hx, h.symm⟩)
        simp [hname, habsent]
      · have hbeq : (name == key) = false := beq_false_of_ne hname
        simp [hname, hbeq]

/-- A connection string of fields with distinct names is read back, if no text contains the
separator of the fields. -/
theorem parseFields_of_join {s : String} {fields : List (String × String)} (hne : fields ≠ [])
    (hs : s.toList = [';'].intercalate ((fields.map fieldText).map String.toList))
    (hnodup : (fields.map Prod.fst).Nodup) (hnames : ∀ field ∈ fields, '=' ∉ field.1.toList)
    (hsep : ∀ field ∈ fields, ';' ∉ (fieldText field).toList) :
    ∃ dict, parseFields s = .ok dict ∧ ∀ name, dict.lookup name = fields.lookup name := by
  obtain ⟨dict, hdict, hlookup⟩ := toDictionary_fields fields hnodup
    fun name _ => AList.lookup_empty name
  refine ⟨dict, ?_, fun name => ?_⟩
  · have hparts : splitParts s = fields.map fieldText := by
      apply splitParts_of_join _ hs
      · intro text ht
        obtain ⟨field, hf, rfl⟩ := List.mem_map.mp ht
        exact hsep field hf
      · simpa using hne
    rw [parseFields, hparts, List.map_map, ← hdict]
    congr 1
    exact List.map_congr_left fun field hf => splitPart_fieldText (hnames field hf)
  · rw [hlookup, AList.lookup_empty, Option.or_none]

/-- The values of a dictionary are those that it is made of. -/
theorem toDictionary_forall {P : String → Prop} {parts : List (List String)}
    {dict dict' : Dictionary String String} (h : toDictionary parts dict = .ok dict')
    (hparts : ∀ key value, [key, value] ∈ parts → P value)
    (hdict : ∀ name value, dict.lookup name = some value → P value) :
    ∀ name value, dict'.lookup name = some value → P value := by
  fun_induction toDictionary parts dict with
  | case1 dict =>
    cases h
    exact hdict
  | case2 key value parts dict hkey => cases h
  | case3 key value parts dict hkey ih =>
    apply ih h
    · exact fun key' value' hm => hparts key' value' (List.mem_cons_of_mem _ hm)
    · intro name value' hl
      rw [Dictionary.lookup_insert] at hl
      split at hl
      · obtain rfl := Option.some.inj hl
        exact hparts key value (List.mem_cons_self ..)
      · exact hdict name value' hl
  | case4 => cases h

private theorem mem_of_splitPart {part key value : String} (h : splitPart part = [key, value])
    {c : Char} (hc : c ∈ value.toList) : c ∈ part.toList := by
  rw [splitPart, List.span_eq_takeWhile_dropWhile] at h
  split at h
  · cases h
  · next separator rest hspan =>
    cases h
    have hdrop := (Prod.mk.inj hspan).2
    rw [String.toList_ofList] at hc
    exact (List.dropWhile_suffix _).subset (hdrop ▸ List.mem_cons_of_mem _ hc)

/-- What is read of a connection string contains no separator of fields. -/
theorem notMem_of_parseFields {s : String} {dict : Dictionary String String}
    (h : parseFields s = .ok dict) {name value : String} (hl : dict.lookup name = some value) :
    ';' ∉ value.toList := by
  apply toDictionary_forall (P := fun value => ';' ∉ value.toList) h _ _ name value hl
  · intro key value hm hc
    obtain ⟨part, hpart, hsplit⟩ := List.mem_map.mp hm
    obtain ⟨l, hl, rfl⟩ := List.mem_map.mp hpart
    have hmem := mem_of_splitPart hsplit hc
    rw [String.toList_ofList] at hmem
    exact notMem_of_mem_splitOn hl hmem
  · intro name value hl
    rw [AList.lookup_empty] at hl
    cases hl

/-! ### What a client puts in -/

/-- What an optional field is read back as: null and white space are left out. -/
def received (value : Option String) : Option String :=
  if isNullOrWhiteSpace value then none else value

/-- An optional field, if the client writes it. -/
def optionalField (name : String) (value : Option String) : List (String × String) :=
  ((received value).map (name, ·)).toList

/-- The optional fields that a client writes. -/
def optionalFields (impersonating forwardedFor application : Option String) :
    List (String × String) :=
  optionalField "Impersonating" impersonating ++ optionalField "ForwardedFor" forwardedFor ++
    optionalField "Application" application

/-- No text among the values contains the separator of fields. -/
def SeparatorFree (values : List (Option String)) : Prop :=
  ∀ value ∈ values, ∀ text ∈ value, ';' ∉ text.toList

private theorem toList_appendField (name : String) (value : Option String) :
    (ClientAuthenticator.appendField name value).toList =
      (optionalField name value).flatMap fun field => ';' :: (fieldText field).toList := by
  unfold ClientAuthenticator.appendField optionalField received
  split
  · rfl
  · next h =>
    cases value with
    | none => exact absurd rfl h
    | some text => simp [fieldText]

/-- The optional fields follow, each behind a separator. -/
theorem toList_appendFields (impersonating forwardedFor application : Option String) :
    (ClientAuthenticator.appendFields impersonating forwardedFor application).toList =
      (optionalFields impersonating forwardedFor application).flatMap fun field =>
        ';' :: (fieldText field).toList := by
  rw [ClientAuthenticator.appendFields, String.toList_append, String.toList_append,
    toList_appendField, toList_appendField, toList_appendField, optionalFields,
    List.flatMap_append, List.flatMap_append]

private theorem intercalate_cons_eq {α : Type} (a : α) (x : List α) (xs : List (List α)) :
    [a].intercalate (x :: xs) = x ++ xs.flatMap (a :: ·) := by
  induction xs generalizing x with
  | nil => simp
  | cons y ys ih => rw [List.intercalate_cons_cons, ih]; simp

variable {impersonating forwardedFor application : Option String}

private theorem lookup_optionalField (name name' : String) (value : Option String) :
    (optionalField name value).lookup name' = if name' = name then received value else none := by
  rw [optionalField]
  cases received value with
  | none => simp
  | some text =>
    by_cases h : name' = name
    · simp [h]
    · simp [h]

private theorem mem_optionalField {name : String} {value : Option String} {field : String × String}
    (h : field ∈ optionalField name value) : field.1 = name ∧ value = some field.2 := by
  unfold optionalField received at h
  split at h
  · cases h
  · rw [Option.mem_toList, Option.map_eq_some_iff] at h
    obtain ⟨text, rfl, rfl⟩ := h
    exact ⟨rfl, rfl⟩

private theorem mem_optionalFields {field : String × String}
    (h : field ∈ optionalFields impersonating forwardedFor application) :
    field.1 ∈ ["Impersonating", "ForwardedFor", "Application"] ∧
      some field.2 ∈ [impersonating, forwardedFor, application] := by
  rw [optionalFields, List.mem_append, List.mem_append] at h
  rcases h with (h | h) | h
  · obtain ⟨hname, hvalue⟩ := mem_optionalField h
    simp [hname, hvalue]
  · obtain ⟨hname, hvalue⟩ := mem_optionalField h
    simp [hname, hvalue]
  · obtain ⟨hname, hvalue⟩ := mem_optionalField h
    simp [hname, hvalue]

private theorem nodup_optionalFields :
    ((optionalFields impersonating forwardedFor application).map Prod.fst).Nodup := by
  rw [optionalFields, optionalField, optionalField, optionalField]
  cases received impersonating <;> cases received forwardedFor <;> cases received application <;>
    simp

private theorem lookup_optionalFields (name : String) :
    (optionalFields impersonating forwardedFor application).lookup name =
      if name = "Impersonating" then received impersonating
      else if name = "ForwardedFor" then received forwardedFor
      else if name = "Application" then received application else none := by
  rw [optionalFields, List.lookup_append, List.lookup_append, lookup_optionalField,
    lookup_optionalField, lookup_optionalField]
  by_cases h1 : name = "Impersonating"
  · simp [h1]
  · by_cases h2 : name = "ForwardedFor"
    · simp [h2]
    · simp [h1, h2]

/-- Required fields, then the optional ones, are read back if no text among them contains
the separator. -/
theorem parseFields_of_separatorFree {s : String} {field : String × String}
    {fields : List (String × String)}
    (hs : s.toList = (fieldText field).toList ++
      (fields ++ optionalFields impersonating forwardedFor application).flatMap fun field =>
        ';' :: (fieldText field).toList)
    (hnames : ((field :: fields).map Prod.fst).Nodup)
    (hknown : ∀ f ∈ field :: fields, f.1 ∈ ["Username", "Password", "Token"])
    (hfree : SeparatorFree ((field :: fields).map (some ·.2) ++
      [impersonating, forwardedFor, application])) :
    ∃ dict, parseFields s = .ok dict ∧
      ∀ name, dict.lookup name = ((field :: fields).lookup name).or
        ((optionalFields impersonating forwardedFor application).lookup name) := by
  let all := (field :: fields) ++ optionalFields impersonating forwardedFor application
  have hjoin : s.toList = [';'].intercalate ((all.map fieldText).map String.toList) := by
    change _ = [';'].intercalate ((fieldText field).toList :: _)
    rw [hs, intercalate_cons_eq, List.map_map, List.flatMap_map]
    rfl
  have hname : ∀ f ∈ all, f.1 ∈ ["Username", "Password", "Token", "Impersonating",
      "ForwardedFor", "Application"] := by
    intro f hf
    rcases List.mem_append.mp hf with hf | hf
    · have h := hknown f hf
      grind
    · have h := (mem_optionalFields hf).1
      grind
  have hvalue : ∀ f ∈ all, ';' ∉ f.2.toList := by
    intro f hf
    rcases List.mem_append.mp hf with hf | hf
    · exact hfree (some f.2) (List.mem_append_left _ (List.mem_map.mpr ⟨f, hf, rfl⟩)) f.2 rfl
    · exact hfree (some f.2) (List.mem_append_right _ (mem_optionalFields hf).2) f.2 rfl
  have hnodup : (all.map Prod.fst).Nodup := by
    rw [List.map_append, List.nodup_append]
    refine ⟨hnames, nodup_optionalFields, fun a ha b hb hab => ?_⟩
    obtain ⟨f, hf, rfl⟩ := List.mem_map.mp ha
    obtain ⟨g, hg, rfl⟩ := List.mem_map.mp hb
    have h := hknown f hf
    have h' := (mem_optionalFields hg).1
    grind
  have hnames' : ∀ f ∈ all, '=' ∉ f.1.toList ∧ ';' ∉ f.1.toList := by
    intro f hf
    have hlist : ∀ name ∈ ["Username", "Password", "Token", "Impersonating", "ForwardedFor",
        "Application"], '=' ∉ name.toList ∧ ';' ∉ name.toList := by decide
    exact hlist f.1 (hname f hf)
  have hne : all ≠ [] := List.cons_ne_nil _ _
  obtain ⟨dict, hdict, hlookup⟩ := parseFields_of_join hne hjoin hnodup
    (fun f hf => (hnames' f hf).1) fun f hf => by
      simpa [fieldText] using ⟨(hnames' f hf).2, hvalue f hf⟩
  refine ⟨dict, hdict, fun name => ?_⟩
  rw [hlookup, List.lookup_append]

/-- A text that is left out as white space has no separator in it either. -/
theorem notMem_of_received {value : Option String}
    (h : ∀ text ∈ received value, ';' ∉ text.toList) : ∀ text ∈ value, ';' ∉ text.toList := by
  intro text ht hc
  rw [Option.mem_def] at ht
  subst ht
  by_cases hspace : isNullOrWhiteSpace (some text) = true
  · have hwhite : isWhiteSpace ';' = true := List.all_eq_true.mp hspace ';' hc
    exact absurd hwhite (by decide)
  · have hreceived : received (some text) = some text := if_neg hspace
    exact h text hreceived hc

/-! ### Reading back -/

private theorem requireField_eq_ok_iff {dict : Dictionary String String}
    {name message value : String} :
    requireField dict name message = .ok value ↔ dict.lookup name = some value := by
  unfold requireField
  cases dict.lookup name with
  | none => exact ⟨nofun, nofun⟩
  | some text => rw [Except.ok.injEq, Option.some.injEq]

/-- The connection details of a password or directory login, field by field. -/
theorem BasicConnectionDetails.parse_eq_ok_iff {s : String} {details : BasicConnectionDetails} :
    parse s = .ok details ↔ ∃ dict, parseFields s = .ok dict ∧
      dict.lookup "Username" = some details.username ∧
      dict.lookup "Password" = some details.password ∧
      dict.lookup "Impersonating" = details.impersonating ∧
      dict.lookup "ForwardedFor" = details.forwardedFor ∧
      dict.lookup "Application" = details.application := by
  rw [parse, bind_eq_ok_iff]
  refine exists_congr fun dict => and_congr_right fun _ => ?_
  rw [bind_eq_ok_iff]
  constructor
  · rintro ⟨username, husername, h⟩
    obtain ⟨password, hpassword, h⟩ := bind_eq_ok_iff.mp h
    cases h
    exact ⟨requireField_eq_ok_iff.mp husername, requireField_eq_ok_iff.mp hpassword, rfl, rfl, rfl⟩
  · rintro ⟨husername, hpassword, himpersonating, hforwardedFor, happlication⟩
    refine ⟨_, requireField_eq_ok_iff.mpr husername, bind_eq_ok_iff.mpr
      ⟨_, requireField_eq_ok_iff.mpr hpassword, ?_⟩⟩
    rw [himpersonating, hforwardedFor, happlication]
    rfl

/-- The connection details of a token login, field by field. -/
theorem JwtConnectionDetails.parse_eq_ok_iff {s : String} {details : JwtConnectionDetails} :
    parse s = .ok details ↔ ∃ dict, parseFields s = .ok dict ∧
      dict.lookup "Token" = some details.token ∧
      dict.lookup "Impersonating" = details.impersonating ∧
      dict.lookup "ForwardedFor" = details.forwardedFor ∧
      dict.lookup "Application" = details.application := by
  rw [parse, bind_eq_ok_iff]
  refine exists_congr fun dict => and_congr_right fun _ => ?_
  rw [bind_eq_ok_iff]
  constructor
  · rintro ⟨token, htoken, h⟩
    cases h
    exact ⟨requireField_eq_ok_iff.mp htoken, rfl, rfl, rfl⟩
  · rintro ⟨htoken, himpersonating, hforwardedFor, happlication⟩
    refine ⟨_, requireField_eq_ok_iff.mpr htoken, ?_⟩
    rw [himpersonating, hforwardedFor, happlication]
    rfl

/-- The optional fields of a dictionary that a connection string gave contain no separator,
whether they were written or left out. -/
theorem separatorFree_of_lookup {s : String} {dict : Dictionary String String}
    (hdict : parseFields s = .ok dict)
    (himpersonating : dict.lookup "Impersonating" = received impersonating)
    (hforwardedFor : dict.lookup "ForwardedFor" = received forwardedFor)
    (happlication : dict.lookup "Application" = received application) :
    SeparatorFree [impersonating, forwardedFor, application] := by
  have hfree : ∀ name value, dict.lookup name = received value →
      ∀ text ∈ value, ';' ∉ text.toList := by
    intro name value hl
    apply notMem_of_received
    intro text ht
    rw [Option.mem_def, ← hl] at ht
    exact notMem_of_parseFields hdict ht
  simp only [SeparatorFree, List.forall_mem_cons]
  exact ⟨hfree _ _ himpersonating, hfree _ _ hforwardedFor, hfree _ _ happlication, nofun⟩

/-- A password or directory login is read back exactly where no field contains the
separator. -/
theorem BasicConnectionDetails.parse_toConnectionString (username password : String)
    (impersonating forwardedFor application : Option String) :
    parse (ClientAuthenticator.basic username password impersonating forwardedFor
        application).toConnectionString =
      .ok ⟨username, password, received impersonating, received forwardedFor,
        received application⟩ ↔
    SeparatorFree [some username, some password, impersonating, forwardedFor, application] := by
  constructor
  · intro h
    obtain ⟨dict, hdict, husername, hpassword, himpersonating, hforwardedFor, happlication⟩ :=
      parse_eq_ok_iff.mp h
    have hoptional := separatorFree_of_lookup hdict himpersonating hforwardedFor happlication
    have hrequired : ∀ name value, dict.lookup name = some value →
        ∀ text ∈ some value, ';' ∉ text.toList :=
      fun name value hl text ht => Option.some.inj ht ▸ notMem_of_parseFields hdict hl
    exact List.forall_mem_cons.mpr ⟨hrequired _ _ husername,
      List.forall_mem_cons.mpr ⟨hrequired _ _ hpassword, hoptional⟩⟩
  · intro hfree
    have hs : (ClientAuthenticator.basic username password impersonating forwardedFor
        application).toConnectionString.toList =
        (fieldText ("Username", username)).toList ++ ([("Password", password)] ++
          optionalFields impersonating forwardedFor application).flatMap fun field =>
            ';' :: (fieldText field).toList := by
      rw [List.flatMap_append, ← toList_appendFields]
      simp [ClientAuthenticator.toConnectionString, fieldText]
    obtain ⟨dict, hdict, hlookup⟩ := parseFields_of_separatorFree hs (by simp) (by simp)
      hfree
    refine parse_eq_ok_iff.mpr ⟨dict, hdict, ?_⟩
    simp only [hlookup, lookup_optionalFields, List.lookup_cons]
    simp

/-- A token login is read back exactly where no field contains the separator. -/
theorem JwtConnectionDetails.parse_toConnectionString (token : String)
    (impersonating forwardedFor application : Option String) :
    parse (ClientAuthenticator.token token impersonating forwardedFor
        application).toConnectionString =
      .ok ⟨token, received impersonating, received forwardedFor, received application⟩ ↔
    SeparatorFree [some token, impersonating, forwardedFor, application] := by
  constructor
  · intro h
    obtain ⟨dict, hdict, htoken, himpersonating, hforwardedFor, happlication⟩ :=
      parse_eq_ok_iff.mp h
    refine List.forall_mem_cons.mpr
      ⟨?_, separatorFree_of_lookup hdict himpersonating hforwardedFor happlication⟩
    exact fun text ht => Option.some.inj ht ▸ notMem_of_parseFields hdict htoken
  · intro hfree
    have hs : (ClientAuthenticator.token token impersonating forwardedFor
        application).toConnectionString.toList =
        (fieldText ("Token", token)).toList ++ ([] ++
          optionalFields impersonating forwardedFor application).flatMap fun field =>
            ';' :: (fieldText field).toList := by
      rw [List.flatMap_append, ← toList_appendFields]
      simp [ClientAuthenticator.toConnectionString, fieldText]
    obtain ⟨dict, hdict, hlookup⟩ := parseFields_of_separatorFree hs (by simp) (by simp)
      hfree
    refine parse_eq_ok_iff.mpr ⟨dict, hdict, ?_⟩
    simp only [hlookup, lookup_optionalFields, List.lookup_cons]
    simp

/-- Whether `Parse` reads back what a client writes, for every client that writes fields:
the user name and the password, or the token, as they are, and each optional field as the
client's value or null where that is null or white space. It does exactly where no field
contains a semicolon. -/
theorem connection_strings_round_trip_iff (username password token : String)
    (impersonating forwardedFor application : Option String) :
    (PasswordFileConnectionDetails.parse (ClientAuthenticator.basic username password
        impersonating forwardedFor application).toConnectionString =
      .ok ⟨username, password, received impersonating, received forwardedFor,
        received application⟩ ↔
      SeparatorFree [some username, some password, impersonating, forwardedFor, application]) ∧
    (LdapConnectionDetails.parse (ClientAuthenticator.basic username password
        impersonating forwardedFor application).toConnectionString =
      .ok ⟨username, password, received impersonating, received forwardedFor,
        received application⟩ ↔
      SeparatorFree [some username, some password, impersonating, forwardedFor, application]) ∧
    (JwtConnectionDetails.parse (ClientAuthenticator.token token impersonating forwardedFor
        application).toConnectionString =
      .ok ⟨token, received impersonating, received forwardedFor, received application⟩ ↔
      SeparatorFree [some token, impersonating, forwardedFor, application]) := by
  have hbasic := BasicConnectionDetails.parse_toConnectionString username password impersonating
    forwardedFor application
  exact ⟨hbasic, hbasic, JwtConnectionDetails.parse_toConnectionString token impersonating
    forwardedFor application⟩

/-- A password with a semicolon ends early, and what follows names a user to act for. -/
theorem password_sets_impersonating :
    PasswordFileConnectionDetails.parse (ClientAuthenticator.basic "u" "x;Impersonating=admin"
        none none none).toConnectionString =
      .ok ⟨"u", "x", some "admin", none, none⟩ ∧
    ¬ ∀ (username password : String) (impersonating forwardedFor application : Option String),
      PasswordFileConnectionDetails.parse (ClientAuthenticator.basic username password
          impersonating forwardedFor application).toConnectionString =
        .ok ⟨username, password, received impersonating, received forwardedFor,
          received application⟩ := by
  have hread : PasswordFileConnectionDetails.parse (ClientAuthenticator.basic "u"
      "x;Impersonating=admin" none none none).toConnectionString =
        .ok ⟨"u", "x", some "admin", none, none⟩ := by decide +kernel
  refine ⟨hread, fun h => ?_⟩
  have hback := h "u" "x;Impersonating=admin" none none none
  rw [hread] at hback
  exact absurd hback (by decide)

end MessageBus.Authentication
