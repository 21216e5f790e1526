import BridgeIM.Model.UserModel

namespace BridgeIM.Model.FriendModel

open CString UserModel

abbrev Table := List (Int × Int)

def isFriend (userid friendid : Int) (t : Table) : Bool := t.contains (userid, friendid)

/-- The join of `Friend` with `User`. -/
def query (userid : Int) (t : Table) (users : UserModel.Table) : List User :=
  (t.filter (fun f => f.1 = userid)).flatMap fun f =>
    (users.rows.filter (fun r => r.id = f.2)).map fun r => { r.user with password := "" }

end BridgeIM.Model.FriendModel
