/-!
# The types of the messages

`sharedFiles/includes/comm_macros.hpp` and `CHAT_BROKER` of the server, for the types that the client
sends, receives or records and those that the server tests.
-/

namespace LombricABrac

/-- The type of a message, one byte on the wire. -/
abbrev MsgType := UInt8

namespace MsgType

@[match_pattern] abbrev CLIENT_AUTHENTIFICATION : MsgType := 2
@[match_pattern] abbrev AUTHENTIFICATION_RESPONSE : MsgType := 3
@[match_pattern] abbrev CLIENT_SEND_MESSAGE : MsgType := 4
@[match_pattern] abbrev SERVER_MESSAGE_TRANSFER : MsgType := 5
@[match_pattern] abbrev GET_CONVO : MsgType := 6
@[match_pattern] abbrev CLIENT_SEND_INVITE : MsgType := 7
@[match_pattern] abbrev SERVER_RECEIVE_INVITE : MsgType := 8
@[match_pattern] abbrev CLIENT_JOIN_REQUEST : MsgType := 9
@[match_pattern] abbrev SERVER_JOIN_RESPONSE : MsgType := 10
@[match_pattern] abbrev GET_LOMBRIC_NAMES : MsgType := 11
@[match_pattern] abbrev GET_LOMBRIC_NAMES_RESPONSE : MsgType := 12
@[match_pattern] abbrev UPDATE_LOMBRICS_NAMES : MsgType := 13
@[match_pattern] abbrev CLIENT_CREATE_ROOM : MsgType := 14
@[match_pattern] abbrev CLIENT_CREATE_ROOM_RESPONSE : MsgType := 15
@[match_pattern] abbrev SERVER_USER_JOINED : MsgType := 16
@[match_pattern] abbrev CLIENT_MODIFY_MAP : MsgType := 17
@[match_pattern] abbrev CLIENT_MODIFY_TIME : MsgType := 18
@[match_pattern] abbrev CLIENT_MODIFY_ROUND_TIME : MsgType := 19
@[match_pattern] abbrev CLIENT_MODIFY_NB_LOMBRICS : MsgType := 20
@[match_pattern] abbrev CLIENT_MODIFY_NB_TEAMS : MsgType := 21
@[match_pattern] abbrev CLIENT_JOIN_TEAM : MsgType := 22
@[match_pattern] abbrev CLIENT_JOINED_TEAM_RESPONSE : MsgType := 23
@[match_pattern] abbrev START : MsgType := 24
@[match_pattern] abbrev INFO_ROOM : MsgType := 25
@[match_pattern] abbrev SERVER_CLIENT_QUITTED_ROOM : MsgType := 26
@[match_pattern] abbrev CLIENT_QUIT_ROOM : MsgType := 27
@[match_pattern] abbrev GET_HISTORY : MsgType := 28
@[match_pattern] abbrev SERVER_HISTORY_RESPONSE : MsgType := 29
@[match_pattern] abbrev GET_RANK : MsgType := 30
@[match_pattern] abbrev SERVER_RANK_RESPONSE : MsgType := 31
@[match_pattern] abbrev CLIENT_ASK_FRIENDSHIP : MsgType := 32
@[match_pattern] abbrev CLIENT_ACCEPT_FRIENDSHIP : MsgType := 33
@[match_pattern] abbrev CLIENT_DELETE_FRIENDSHIP : MsgType := 34
@[match_pattern] abbrev CLIENT_ASK_FRIENDSHIP_LIST : MsgType := 35
@[match_pattern] abbrev SERVER_RESPONDS_FRIENDSHIP_LIST : MsgType := 36
@[match_pattern] abbrev CLIENT_ASKS_ALL_INVITATIONS : MsgType := 37
@[match_pattern] abbrev POS_LOMB_R : MsgType := 38
@[match_pattern] abbrev POS_LOMB_S : MsgType := 39
@[match_pattern] abbrev SHOOT : MsgType := 40
@[match_pattern] abbrev UPDATE_WALL : MsgType := 41
@[match_pattern] abbrev LOMB_DMG : MsgType := 42
@[match_pattern] abbrev END_GAME : MsgType := 46
@[match_pattern] abbrev END_TOUR : MsgType := 47
@[match_pattern] abbrev NOTIF : MsgType := 50
@[match_pattern] abbrev NEXT_ROUND : MsgType := 51
@[match_pattern] abbrev DECO : MsgType := 52
@[match_pattern] abbrev CLIENT_CHANGE_WEAPON : MsgType := 53
@[match_pattern] abbrev SERVER_DIFFERENT_WEAPON : MsgType := 54
@[match_pattern] abbrev PING : MsgType := 55
@[match_pattern] abbrev CLIENT_LOOKUP_MATCH : MsgType := 57
@[match_pattern] abbrev CLIENT_LOOKUP_RESPONSE : MsgType := 58
@[match_pattern] abbrev CLIENT_SEND_IN_GAME_MESSAGE : MsgType := 59
@[match_pattern] abbrev CLIENT_MODIFY_VIE_CAISSE : MsgType := 60
@[match_pattern] abbrev CLIENT_MODIFY_PROBA_CAISSE : MsgType := 61
@[match_pattern] abbrev CLIENT_MODIFY_INIT_VIE : MsgType := 62
@[match_pattern] abbrev CLIENT_MODIFY_MAX_VIE : MsgType := 63
@[match_pattern] abbrev CHAT_BROKER : MsgType := 100

end MsgType
end LombricABrac
