import BridgeIM.Lib.Decoder
import BridgeIM.Redis.Link

namespace BridgeIM.Redis.Resp

open Lib BridgeIM.CString

def splitLine : List Char → Option (List Char × List Char)
  | '\r' :: '\n' :: rest => some ([], rest)
  | c :: rest => (splitLine rest).map fun x => (c :: x.1, x.2)
  | [] => none

theorem splitLine_append {s l t : List Char} (u : List Char) (h : splitLine s = some (l, t)) :
    splitLine (s ++ u) = some (l, t ++ u) := by
  induction s using splitLine.induct generalizing l t with
  | case1 rest =>
    cases h
    rfl
  | case2 c rest hne ih =>
    rw [splitLine.eq_2 c rest hne] at h
    obtain ⟨⟨l', t'⟩, hl, he⟩ := Option.map_eq_some_iff.mp h
    cases he
    have hne' : ∀ q, c = '\r' → rest ++ u = '\n' :: q → False := by
      intro q hc hq
      cases rest with
      | nil => cases hl
      | cons d ds =>
        obtain ⟨rfl, _⟩ := List.cons_eq_cons.mp hq
        exact hne ds hc rfl
    rw [List.cons_append, splitLine.eq_2 c (rest ++ u) hne', ih hl]
    rfl
  | case3 => cases h

def line : Decoder Char (List Char) where
  next := splitLine
  extend := fun _ _ _ u h => splitLine_append u h

def element : Decoder Char ReplyElement :=
  line.bind fun
    | '$' :: '-' :: _ => .ret ⟨none⟩
    | '$' :: n => (Decoder.take (digits n + 2)).bind fun s => .ret ⟨some (String.ofList (s.take (digits n)))⟩
    | ':' :: _ => .ret ⟨none⟩
    | _ => .fail

/-- The replies of the Redis protocol that are not nested. -/
def reply : Decoder Char RedisReply :=
  line.bind fun
    | '*' :: n => (Decoder.times (digits n) element).bind fun es =>
      .ret { type := .array, str := none, element := es.map some }
    | '+' :: s => .ret { type := .status, str := some (String.ofList s), element := [] }
    | '-' :: s => .ret { type := .error, str := some (String.ofList s), element := [] }
    | ':' :: _ => .ret { type := .integer, str := none, element := [] }
    | '$' :: '-' :: _ => .ret { type := .nil, str := none, element := [] }
    | '$' :: n => (Decoder.take (digits n + 2)).bind fun s =>
      .ret { type := .string, str := some (String.ofList (s.take (digits n))), element := [] }
    | _ => .fail

theorem line_shortens : line.Shortens := by
  intro s l t h
  induction s using splitLine.induct generalizing l t with
  | case1 rest =>
    cases h
    exact Nat.lt_add_of_pos_right Nat.two_pos
  | case2 c rest hne ih =>
    have h' : (splitLine rest).map (fun x => (c :: x.1, x.2)) = some (l, t) := (splitLine.eq_2 c rest hne).symm.trans h
    obtain ⟨⟨l', t'⟩, hl, he⟩ := Option.map_eq_some_iff.mp h'
    cases he
    exact (ih l' t' hl).trans (Nat.lt_succ_self _)
  | case3 => cases h

theorem element_within : element.Within := by
  refine line_shortens.within.bind fun l => ?_
  split
  · exact Decoder.within_ret _
  · exact (Decoder.within_take _).bind fun s => Decoder.within_ret _
  · exact Decoder.within_ret _
  · exact Decoder.within_fail

theorem reply_shortens : reply.Shortens := by
  refine line_shortens.bind fun l => ?_
  split
  · exact (Decoder.within_times element_within _).bind fun es => Decoder.within_ret _
  · exact Decoder.within_ret _
  · exact Decoder.within_ret _
  · exact Decoder.within_ret _
  · exact Decoder.within_ret _
  · exact (Decoder.within_take _).bind fun s => Decoder.within_ret _
  · exact Decoder.within_fail

example : (reply.next "*3\r\n$7\r\nmessage\r\n$1\r\n7\r\n$2\r\nhi\r\n:1\r\n".toList).map (fun x => (x.1, x.2.length)) =
    some ((Pushed.message "7" "hi" 0).reply, 4) := by decide +kernel

end BridgeIM.Redis.Resp
