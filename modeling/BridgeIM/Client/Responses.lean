import BridgeIM.Model.GroupModel
import BridgeIM.Server.Framing
import BridgeIM.Server.Handler

namespace BridgeIM.Client

open CString Model.UserModel Model.GroupModel Server Server.Framing

def utf8 (s : String) : Bytes := s.toList.flatMap String.utf8EncodeChar

/-- The globals of the client that its receiving thread writes, how often it
has posted `rwsem`, and what it has written to `std::cout`. -/
structure ChatClient where
  currentUser : User := {}
  currentUserFriendList : List User := []
  currentUserGroupList : List Group := []
  isLoginSuccess : Bool := false
  posts : Nat := 0
  cout : List String := []

def ChatClient.write (s : ChatClient) (text : String) : ChatClient := { s with cout := s.cout ++ [text] }

/-- `js[key].get<int>()`, which throws when the field is missing or no number. -/
def readInt (js : Json) (key : String) : Option Int := (js.get? key).bind Json.toInt?

def readStr (js : Json) (key : String) : Option String := (js.get? key).bind Json.toStr?

/-- The conversion of a value to `std::vector<std::string>`. -/
def toStrs? : Json → Option (List String)
  | .arr xs => xs.mapM Json.toStr?
  | _ => none

/-- A list of strings that may be absent. -/
def readStrs (js : Json) (key : String) : Option (List String) :=
  match js.get? key with
  | some v => toStrs? v
  | none => some []

def userLine (user : User) : String := decimal user.id ++ " " ++ user.name ++ " " ++ user.state ++ "\n"

def memberLine (user : GroupUser) : String := decimal user.id ++ " " ++ user.name ++ " " ++ user.role ++ "\n"

def groupLines (group : Group) : String :=
  "groupid:" ++ decimal group.id ++ " groupname:" ++ " " ++ group.name ++ " " ++ " groupdesc:" ++ group.desc ++ "\n" ++
    String.join (group.users.map memberLine)

def showCurrentUesrInfo (s : ChatClient) : String :=
  "===================== login user ===================" ++ "\n" ++
    "current login user => id：" ++ decimal s.currentUser.id ++ " name：" ++ s.currentUser.name ++ "\n " ++
    "--------------------- friend list ------------------" ++ "\n" ++
    String.join (s.currentUserFriendList.map userLine) ++
    "--------------------- group list ------------------" ++ "\n" ++
    String.join (s.currentUserGroupList.map groupLines) ++
    "====================================================" ++ "\n"

def oneChatLine (js : Json) : Option String := do
  let time ← readStr js "time"
  let userid ← readInt js "userid"
  let name ← readStr js "name"
  let msg ← readStr js "msg"
  some (time ++ ":[" ++ decimal userid ++ "]" ++ name ++ "，said:" ++ msg ++ "\n")

def groupChatLine (js : Json) (groupid : Option String) : Option String := do
  let time ← readStr js "time"
  let groupid ← groupid
  let groupname ← readStr js "groupname"
  let userid ← readInt js "userid"
  let name ← readStr js "name"
  let msg ← readStr js "msg"
  some (time ++ ":[" ++ groupid ++ "]" ++ groupname ++ ":[" ++ decimal userid ++ "]" ++ name ++ "，said:" ++ msg ++ "\n")

section Parse

variable (parse : Bytes → Option Json)

def readFriend (text : String) : Option User := do
  let js ← parse (utf8 text)
  let id ← readInt js "id"
  let name ← readStr js "name"
  let state ← readStr js "state"
  some { id := id, name := name, state := state }

def readMember (text : String) : Option GroupUser := do
  let js ← parse (utf8 text)
  let id ← readInt js "id"
  let name ← readStr js "name"
  let state ← readStr js "state"
  let role ← readStr js "role"
  some { id := id, name := name, state := state, role := role }

def readGroup (text : String) : Option Group := do
  let js ← parse (utf8 text)
  let id ← readInt js "id"
  let name ← readStr js "name"
  let desc ← readStr js "desc"
  let users ← (js.get? "users").bind toStrs?
  let users ← users.mapM (readMember parse)
  some { id := id, name := name, desc := desc, users := users }

/-- What `doLoginResponse` shows of an element of `offlinemsg`. -/
def replay (text : String) : Option (List String) := do
  let js ← parse (utf8 text)
  let msgid ← readInt js "msgid"
  if msgid = EnMsgType.oneChatMsg.code then
    let line ← oneChatLine js
    some [line]
  else if msgid = EnMsgType.groupChatMsg.code then
    let line ← groupChatLine js (some ((js.get? "groupid").getD .null).dump)
    some [line]
  else some []

/-- The result is `none` when an exception leaves the function. -/
def doRegResponse (js : Json) (s : ChatClient) : Option ChatClient := do
  let errno ← readInt js "errno"
  if errno ≠ 0 then some s
  else
    let id ← readInt js "id"
    some (s.write ("register success,userid is " ++ decimal id ++ "，do not forget it!\n"))

def recordLists (js : Json) (s : ChatClient) : Option ChatClient := do
  let id ← readInt js "id"
  let name ← readStr js "name"
  let friends ← readStrs js "friends"
  let friends ← friends.mapM (readFriend parse)
  let groups ← readStrs js "groups"
  let groups ← groups.mapM (readGroup parse)
  some { s with
    currentUser := { s.currentUser with id := id, name := name }
    currentUserFriendList := s.currentUserFriendList ++ friends
    currentUserGroupList := s.currentUserGroupList ++ groups }

def showOffline (js : Json) (s : ChatClient) : Option ChatClient := do
  let offlinemsg ← readStrs js "offlinemsg"
  let shown ← offlinemsg.mapM (replay parse)
  some { s with cout := s.cout ++ shown.flatten }

def doLoginResponse (js : Json) (s : ChatClient) : Option ChatClient := do
  let errno ← readInt js "errno"
  if errno = 0 then
    let s ← recordLists parse js s
    let s ← showOffline parse js (s.write (showCurrentUesrInfo s))
    some { s with isLoginSuccess := true }
  else some { s with isLoginSuccess := false }

def friendRequest (userid : Int) : String :=
  "\n============================================\n" ++ "[系统通知] 叮咚！用户 " ++ decimal userid ++
    " 申请加您为好友！\n" ++ "同意请输入: acceptfriend:" ++ decimal userid ++ "\n" ++
    "拒绝请输入: rejectfriend:" ++ decimal userid ++ "\n" ++ "============================================\n"

def groupRequest (userid groupid : Int) : String :=
  "\n============================================\n" ++ "[系统通知] 叮咚！用户 " ++ decimal userid ++
    " 申请加入你的群聊：" ++ decimal groupid ++ "！\n" ++
    "同意请输入: acceptaddgroup:" ++ decimal userid ++ ":" ++ decimal groupid ++ "\n" ++
    "拒绝请输入: rejectaddgroup:" ++ decimal userid ++ ":" ++ decimal groupid ++ "\n" ++
    "============================================\n"

/-- What `readTaskHandler` does with a message. The ifs of the source test
`msgid` against different codes, so that at most one of them is taken. -/
def dispatch (js : Json) (s : ChatClient) : Option ChatClient := do
  let msgid ← readInt js "msgid"
  if msgid = EnMsgType.oneChatMsg.code then
    let line ← oneChatLine js
    some (s.write line)
  else if msgid = EnMsgType.oneChatMsgAck.code then
    let errmsg ← readStr js "errmsg"
    some (s.write (errmsg ++ "\n"))
  else if msgid = EnMsgType.addFriendRequest.code then
    let userid ← readInt js "userid"
    some (s.write (friendRequest userid))
  else if msgid = EnMsgType.addFriendResponse.code then
    let errmsg ← readStr js "errmsg"
    some (s.write ("\n[系统通知] " ++ errmsg ++ "\n"))
  else if msgid = EnMsgType.createGroupMsgAck.code then
    let errmsg ← readStr js "errmsg"
    some (s.write ("\n[系统通知] " ++ errmsg ++ "\n"))
  else if msgid = EnMsgType.addGroupMsg.code then
    let userid ← readInt js "userid"
    let groupid ← readInt js "groupid"
    some (s.write (groupRequest userid groupid))
  else if msgid = EnMsgType.addGroupResponse.code then
    let errmsg ← readStr js "errmsg"
    some (s.write ("\n[系统通知]" ++ errmsg ++ "\n"))
  else if msgid = EnMsgType.groupChatMsg.code then
    let line ← groupChatLine js ((readInt js "groupid").map decimal)
    some (s.write line)
  else if msgid = EnMsgType.logMsgAck.code then
    let s ← doLoginResponse parse js s
    some { s with posts := s.posts + 1 }
  else if msgid = EnMsgType.regMsgAck.code then
    let s ← doRegResponse js s
    some { s with posts := s.posts + 1 }
  else some s

/-- The body of the inner loop of `readTaskHandler`: an empty message and one
that is not JSON are skipped. -/
def onMessage (message : Bytes) (s : ChatClient) : Option ChatClient :=
  if message = [] then some s
  else match parse message with
    | none => some s
    | some js => dispatch parse js s

end Parse

end BridgeIM.Client
