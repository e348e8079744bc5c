import ProcedureBridge.Proofs.Json.Token

/-! # Documents as text

A document is written as the texts of its tokens, one after the other. The reader, given these
tokens, takes the document in as one value wherever a value may stand. So what is written is read
back, as long as its numbers are whole and its strings are text. -/

namespace ProcedureBridge.Json

/-- What holds of a container if it holds of all that is in it holds of every document. -/
theorem induction {P : Json → Prop} (null : P null) (bool : ∀ b, P (bool b))
    (number : ∀ n, P (number n)) (string : ∀ text, P (string text))
    (array : ∀ items, (∀ item ∈ items, P item) → P (array items))
    (object : ∀ members, (∀ member ∈ members, P member.2) → P (object members)) (j : Json) : P j := by
  refine @Json.rec P (fun items => ∀ item ∈ items, P item)
    (fun members => ∀ member ∈ members, P member.2) (fun member => P member.2)
    null bool number string array object ?_ ?_ ?_ ?_ ?_ j
  · simp
  · intro item items hitem hitems
    simpa using ⟨hitem, hitems⟩
  · simp
  · intro member members hmember hmembers
    exact List.forall_mem_cons.mpr ⟨hmember, hmembers⟩
  · exact fun _ _ h => h

/-! ## The tokens of a document -/

def tokens : Json → List Token
  | null => [.null]
  | bool b => [.bool b]
  | number n => [.number n]
  | string text => [.string text]
  | array items => .openArray :: itemTokens items ++ [.closeArray]
  | object members => .openObject :: memberTokens members ++ [.closeObject]
where
  itemTokens : List Json → List Token
    | [] => []
    | [item] => item.tokens
    | item :: next :: rest => item.tokens ++ .comma :: itemTokens (next :: rest)
  memberTokens : List (Option String × Json) → List Token
    | [] => []
    | [(key, value)] => .string key :: .colon :: value.tokens
    | (key, value) :: next :: rest =>
      .string key :: .colon :: value.tokens ++ .comma :: memberTokens (next :: rest)

theorem render_eq (j : Json) : j.render = j.tokens.flatMap Token.render := by
  induction j using Json.induction with
  | null | number | string => simp [render, tokens, Token.render]
  | bool b => cases b <;> simp [render, tokens, Token.render]
  | array items ih =>
    have hitems : render.renderItems items = (tokens.itemTokens items).flatMap Token.render := by
      induction items with
      | nil => rfl
      | cons item rest ih' =>
        obtain ⟨hitem, hrest⟩ := List.forall_mem_cons.mp ih
        cases rest with
        | nil => exact hitem
        | cons next rest =>
          simp [render.renderItems, tokens.itemTokens, Token.render, hitem, ih' hrest]
    simp [render, tokens, Token.render, hitems]
  | object members ih =>
    have hmembers :
        render.renderMembers members = (tokens.memberTokens members).flatMap Token.render := by
      induction members with
      | nil => rfl
      | cons member rest ih' =>
        obtain ⟨key, value⟩ := member
        obtain ⟨hvalue, hrest⟩ := List.forall_mem_cons.mp ih
        cases rest with
        | nil => simp [render.renderMembers, tokens.memberTokens, Token.render, hvalue]
        | cons next rest =>
          simp [render.renderMembers, tokens.memberTokens, Token.render, hvalue, ih' hrest]
    simp [render, tokens, Token.render, hmembers]

/-! ## Cutting -/

theorem Token.Apart.append {before after : List Token} {t : Token} (ht : t.isNumber = false)
    (hbefore : Apart before) (hafter : Apart after) : Apart (before ++ t :: after) := by
  refine List.isChain_append.mpr ⟨hbefore, ?_, ?_⟩
  · exact List.isChain_cons.mpr ⟨fun u _ hnumber => absurd hnumber (by simp [ht]), hafter⟩
  · rintro u - v hv -
    rwa [← Option.some.inj hv]

theorem tokens_apart (j : Json) : Token.Apart j.tokens := by
  induction j using Json.induction with
  | null | bool | number | string => exact List.isChain_singleton _
  | array items ih =>
    have hitems : Token.Apart (tokens.itemTokens items) := by
      induction items with
      | nil => exact List.isChain_nil
      | cons item rest ih' =>
        obtain ⟨hitem, hrest⟩ := List.forall_mem_cons.mp ih
        cases rest with
        | nil => exact hitem
        | cons next rest => exact hitem.append rfl (ih' hrest)
    have hopen : Token.Apart (.openArray :: tokens.itemTokens items) :=
      Token.Apart.append rfl List.isChain_nil hitems
    exact hopen.append rfl List.isChain_nil
  | object members ih =>
    have hmembers : Token.Apart (tokens.memberTokens members) := by
      induction members with
      | nil => exact List.isChain_nil
      | cons member rest ih' =>
        obtain ⟨key, value⟩ := member
        obtain ⟨hvalue, hrest⟩ := List.forall_mem_cons.mp ih
        have hkey : Token.Apart [.string key] := List.isChain_singleton _
        have hmember : Token.Apart (.string key :: .colon :: value.tokens) := hkey.append rfl hvalue
        cases rest with
        | nil => exact hmember
        | cons next rest => exact hmember.append rfl (ih' hrest)
    have hopen : Token.Apart (.openObject :: tokens.memberTokens members) :=
      Token.Apart.append rfl List.isChain_nil hmembers
    exact hopen.append rfl List.isChain_nil

/-! ## Reading -/

theorem tokens_eq_cons (j : Json) : ∃ t rest, j.tokens = t :: rest ∧ t ≠ .closeArray := by
  cases j <;> exact ⟨_, _, rfl, nofun⟩

namespace Reading

/-- The value is taken in where it may stand. -/
def TakesIn (j : Json) : Prop :=
  ∀ stack : List Open, j.tokens.foldlM step ⟨stack, .value⟩ = some (complete stack j)

theorem foldlM_itemTokens (stack : List Open) {item : Json} {rest : List Json}
    (h : ∀ j ∈ item :: rest, TakesIn j) (done : List Json) :
    (tokens.itemTokens (item :: rest)).foldlM step ⟨.array done :: stack, .value⟩ =
      some ⟨.array ((item :: rest).reverse ++ done) :: stack, .next⟩ := by
  induction rest generalizing item done with
  | nil => exact h item List.mem_cons_self _
  | cons next rest ih =>
    obtain ⟨hitem, hrest⟩ := List.forall_mem_cons.mp h
    have hnext : (.comma :: tokens.itemTokens (next :: rest)).foldlM step
          (complete (.array done :: stack) item) =
        some ⟨.array ((next :: rest).reverse ++ item :: done) :: stack, .next⟩ :=
      ih hrest (item :: done)
    rw [tokens.itemTokens, List.foldlM_append, hitem, Option.bind_eq_bind, Option.bind_some, hnext]
    simp

/-- The first item may stand where also the end of the array may. -/
theorem foldlM_firstItem {stack : List Open} (item : Json) (rest : List Json) :
    (tokens.itemTokens (item :: rest)).foldlM step ⟨stack, .firstItem⟩ =
      (tokens.itemTokens (item :: rest)).foldlM step ⟨stack, .value⟩ := by
  obtain ⟨t, more, htokens, ht⟩ := item.tokens_eq_cons
  obtain ⟨after, hafter⟩ : ∃ after, tokens.itemTokens (item :: rest) = t :: after := by
    cases rest <;> simp [tokens.itemTokens, htokens]
  rw [hafter, List.foldlM_cons, List.foldlM_cons]
  cases t <;> first | rfl | exact absurd rfl ht

theorem foldlM_memberTokens (stack : List Open) {member : Option String × Json}
    {rest : List (Option String × Json)} (h : ∀ m ∈ member :: rest, TakesIn m.2) (done : List (Option String × Json)) :
    (tokens.memberTokens (member :: rest)).foldlM step ⟨stack, .key done⟩ =
      some ⟨.object ((member :: rest).reverse ++ done) none :: stack, .next⟩ := by
  induction rest generalizing member done with
  | nil => exact h member List.mem_cons_self _
  | cons next rest ih =>
    obtain ⟨key, value⟩ := member
    obtain ⟨hvalue, hrest⟩ := List.forall_mem_cons.mp h
    have hmember : (.string key :: .colon :: value.tokens).foldlM step ⟨stack, .key done⟩ =
        some ⟨.object ((key, value) :: done) none :: stack, .next⟩ := hvalue _
    have hnext : (.comma :: tokens.memberTokens (next :: rest)).foldlM step
          ⟨.object ((key, value) :: done) none :: stack, .next⟩ =
        some ⟨.object ((next :: rest).reverse ++ (key, value) :: done) none :: stack, .next⟩ :=
      ih hrest ((key, value) :: done)
    rw [tokens.memberTokens, List.foldlM_append, hmember, Option.bind_eq_bind, Option.bind_some,
      hnext]
    simp

theorem takesIn (j : Json) : TakesIn j := by
  induction j using Json.induction with
  | null | bool | number | string => exact fun _ => rfl
  | array items ih =>
    intro stack
    cases items with
    | nil => rfl
    | cons item rest =>
      have hitems := (foldlM_firstItem item rest).trans (foldlM_itemTokens stack ih [])
      change (tokens.itemTokens (item :: rest) ++ [Token.closeArray]).foldlM step
        ⟨.array [] :: stack, .firstItem⟩ = _
      rw [List.foldlM_append, hitems]
      simp [step]
  | object members ih =>
    intro stack
    cases members with
    | nil => rfl
    | cons member rest =>
      have hmembers := foldlM_memberTokens stack ih []
      have hfirst : (tokens.memberTokens (member :: rest)).foldlM step ⟨stack, .firstKey⟩ =
          (tokens.memberTokens (member :: rest)).foldlM step ⟨stack, .key []⟩ := by
        cases rest <;> rfl
      change (tokens.memberTokens (member :: rest) ++ [Token.closeObject]).foldlM step
        ⟨stack, .firstKey⟩ = _
      rw [List.foldlM_append, hfirst, hmembers]
      simp [step]

end Reading

/-- Numbers are whole, and strings are text. -/
def IsPlain (j : Json) : Prop := ∀ t ∈ j.tokens, t.IsPlain

/-- What is written is read back. -/
theorem read?_write {j : Json} (hj : j.IsPlain) : read? j.write = some j := by
  rw [read?, write, String.toList_ofList, render_eq, Token.scan_flatMap hj j.tokens_apart,
    Option.bind_some, ofTokens?, Reading.takesIn]
  rfl

end ProcedureBridge.Json
