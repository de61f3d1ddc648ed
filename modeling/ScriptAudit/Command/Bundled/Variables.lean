import ScriptAudit.Command.Bundled.Shape

/-! Waiting, jumps and arithmetic on variables. -/
namespace ScriptAudit.Bundled

def variableCommands : List Command :=
  [action 0x0000 "nop" [],
   action 0x0001 "wait" [int],
   action 0x0002 "goto" [pointer],
   action 0x0003 "shake_cam" [int],
   action 0x0004 "set_var_int" [shared, int],
   action 0x0005 "set_var_float" [shared, real],
   action 0x0006 "set_lvar_int" [own, int],
   action 0x0007 "set_lvar_float" [own, real],
   action 0x0008 "add_val_to_int_var" [shared, int],
   action 0x0009 "add_val_to_float_var" [shared, real],
   action 0x000A "add_val_to_int_lvar" [own, int],
   action 0x000B "add_val_to_float_lvar" [own, real],
   action 0x000C "sub_val_from_int_var" [shared, int],
   action 0x000D "sub_val_from_float_var" [shared, real],
   action 0x000E "sub_val_from_int_lvar" [own, int],
   action 0x000F "sub_val_from_float_lvar" [own, real],
   action 0x0010 "mult_int_var_by_val" [shared, int],
   action 0x0011 "mult_float_var_by_val" [shared, real],
   action 0x0012 "mult_int_lvar_by_val" [own, int],
   action 0x0013 "mult_float_lvar_by_val" [own, real],
   action 0x0014 "div_int_var_by_val" [shared, int],
   action 0x0015 "div_float_var_by_val" [shared, real],
   action 0x0016 "div_int_lvar_by_val" [own, int],
   action 0x0017 "div_float_lvar_by_val" [own, real],
   condition 0x0018 "is_int_var_greater_than_number" [shared, int],
   condition 0x0019 "is_int_lvar_greater_than_number" [own, int],
   condition 0x001A "is_number_greater_than_int_var" [int, shared],
   condition 0x001B "is_number_greater_than_int_lvar" [int, own],
   condition 0x001C "is_int_var_greater_than_int_var" [shared, shared],
   condition 0x001D "is_int_lvar_greater_than_int_lvar" [own, own],
   condition 0x001E "is_int_var_greater_than_int_lvar" [shared, own],
   condition 0x001F "is_int_lvar_greater_than_int_var" [own, shared],
   condition 0x0020 "is_float_var_greater_than_number" [shared, real],
   condition 0x0021 "is_float_lvar_greater_than_number" [own, real],
   condition 0x0022 "is_number_greater_than_float_var" [real, shared],
   condition 0x0023 "is_number_greater_than_float_lvar" [real, own],
   condition 0x0024 "is_float_var_greater_than_float_var" [shared, shared],
   condition 0x0025 "is_float_lvar_greater_than_float_lvar" [own, own],
   condition 0x0026 "is_float_var_greater_than_float_lvar" [shared, own],
   condition 0x0027 "is_float_lvar_greater_than_float_var" [own, shared],
   condition 0x0028 "is_int_var_greater_or_equal_to_number" [shared, int],
   condition 0x0029 "is_int_lvar_greater_or_equal_to_number" [own, int],
   condition 0x002A "is_number_greater_or_equal_to_int_var" [int, shared],
   condition 0x002B "is_number_greater_or_equal_to_int_lvar" [int, own],
   condition 0x002C "is_int_var_greater_or_equal_to_int_var" [shared, shared],
   condition 0x002D "is_int_lvar_greater_or_equal_to_int_lvar" [own, own],
   condition 0x002E "is_int_var_greater_or_equal_to_int_lvar" [shared, own],
   condition 0x002F "is_int_lvar_greater_or_equal_to_int_var" [own, shared],
   condition 0x0030 "is_float_var_greater_or_equal_to_number" [shared, real],
   condition 0x0031 "is_float_lvar_greater_or_equal_to_number" [own, real],
   condition 0x0032 "is_number_greater_or_equal_to_float_var" [real, shared],
   condition 0x0033 "is_number_greater_or_equal_to_float_lvar" [real, own],
   condition 0x0034 "is_float_var_greater_or_equal_to_float_var" [shared, shared],
   condition 0x0035 "is_float_lvar_greater_or_equal_to_float_lvar" [own, own],
   condition 0x0036 "is_float_var_greater_or_equal_to_float_lvar" [shared, own],
   condition 0x0037 "is_float_lvar_greater_or_equal_to_float_var" [own, shared],
   condition 0x0038 "is_int_var_equal_to_number" [shared, int],
   condition 0x0039 "is_int_lvar_equal_to_number" [own, int],
   condition 0x003A "is_int_var_equal_to_int_var" [shared, shared],
   condition 0x003B "is_int_lvar_equal_to_int_lvar" [own, own],
   condition 0x003C "is_int_var_equal_to_int_lvar" [shared, own],
   condition 0x0042 "is_float_var_equal_to_number" [shared, real],
   condition 0x0043 "is_float_lvar_equal_to_number" [own, real],
   condition 0x0044 "is_float_var_equal_to_float_var" [shared, shared],
   condition 0x0045 "is_float_lvar_equal_to_float_lvar" [own, own],
   condition 0x0046 "is_float_var_equal_to_float_lvar" [shared, own],
   action 0x004C "goto_if_true" [pointer],
   action 0x004D "goto_if_false" [pointer],
   action 0x004E "terminate_this_script" [],
   action 0x004F "start_new_script" [pointer, more],
   action 0x0050 "gosub" [pointer],
   action 0x0051 "return" [],
   action 0x0053 "create_player" [int, real, real, real, real],
   action 0x0054 "get_player_coordinates" [any, outOwn, outOwn, outOwn],
   action 0x0055 "set_player_coordinates" [any, real, real, real],
   condition 0x0056 "is_player_in_area_2d" [any, real, real, real, real, int],
   condition 0x0057 "is_player_in_area_3d" [any, real, real, real, real, real, real, int],
   action 0x0058 "add_int_var_to_int_var" [shared, shared],
   action 0x0059 "add_float_var_to_float_var" [shared, shared],
   action 0x005A "add_int_lvar_to_int_lvar" [own, own],
   action 0x005B "add_float_lvar_to_float_lvar" [own, own],
   action 0x005C "add_int_var_to_int_lvar" [own, shared],
   action 0x005D "add_float_var_to_float_lvar" [own, shared],
   action 0x005E "add_int_lvar_to_int_var" [shared, own],
   action 0x005F "add_float_lvar_to_float_var" [shared, own],
   action 0x0060 "sub_int_var_from_int_var" [shared, shared],
   action 0x0061 "sub_float_var_from_float_var" [shared, shared],
   action 0x0062 "sub_int_lvar_from_int_lvar" [own, own],
   action 0x0063 "sub_float_lvar_from_float_lvar" [own, own],
   action 0x0064 "sub_int_var_from_int_lvar" [own, shared],
   action 0x0065 "sub_float_var_from_float_lvar" [own, shared],
   action 0x0066 "sub_int_lvar_from_int_var" [shared, own],
   action 0x0067 "sub_float_lvar_from_float_var" [shared, own],
   action 0x0068 "mult_int_var_by_int_var" [shared, shared],
   action 0x0069 "mult_float_var_by_float_var" [shared, shared],
   action 0x006A "mult_int_lvar_by_int_lvar" [own, own],
   action 0x006B "mult_float_lvar_by_float_lvar" [own, own],
   action 0x006C "mult_int_lvar_by_int_var" [own, shared],
   action 0x006D "mult_float_lvar_by_float_var" [own, shared],
   action 0x006E "mult_int_var_by_int_lvar" [shared, own],
   action 0x006F "mult_float_var_by_float_lvar" [shared, own],
   action 0x0070 "div_int_var_by_int_var" [shared, shared],
   action 0x0071 "div_float_var_by_float_var" [shared, shared],
   action 0x0072 "div_int_lvar_by_int_lvar" [own, own],
   action 0x0073 "div_float_lvar_by_float_lvar" [own, own],
   action 0x0074 "div_int_lvar_by_int_var" [own, shared],
   action 0x0075 "div_float_lvar_by_float_var" [own, shared],
   action 0x0076 "div_int_var_by_int_lvar" [shared, own],
   action 0x0077 "div_float_var_by_float_lvar" [shared, own],
   action 0x0078 "add_timed_val_to_float_var" [shared, real],
   action 0x0079 "add_timed_val_to_float_lvar" [own, real],
   action 0x007A "add_timed_float_var_to_float_var" [shared, shared],
   action 0x007B "add_timed_float_lvar_to_float_lvar" [own, own],
   action 0x007C "add_timed_float_var_to_float_lvar" [own, shared],
   action 0x007D "add_timed_float_lvar_to_float_var" [shared, own],
   action 0x007E "sub_timed_val_from_float_var" [shared, real],
   action 0x007F "sub_timed_val_from_float_lvar" [own, real],
   action 0x0080 "sub_timed_float_var_from_float_var" [shared, shared],
   action 0x0081 "sub_timed_float_lvar_from_float_lvar" [own, own],
   action 0x0082 "sub_timed_float_var_from_float_lvar" [own, shared],
   action 0x0083 "sub_timed_float_lvar_from_float_var" [shared, own],
   action 0x0084 "set_var_int_to_var_int" [outShared, any],
   action 0x0085 "set_lvar_int_to_lvar_int" [own, own],
   action 0x0086 "set_var_float_to_var_float" [shared, shared],
   action 0x0087 "set_lvar_float_to_lvar_float" [own, own],
   action 0x0088 "set_var_float_to_lvar_float" [shared, own],
   action 0x0089 "set_lvar_float_to_var_float" [own, shared],
   action 0x008A "set_var_int_to_lvar_int" [shared, own],
   action 0x008B "set_lvar_int_to_var_int" [own, shared],
   action 0x008C "cset_var_int_to_var_float" [shared, shared],
   action 0x008D "cset_var_float_to_var_int" [shared, shared],
   action 0x008E "cset_lvar_int_to_var_float" [own, shared],
   action 0x008F "cset_lvar_float_to_var_int" [own, shared],
   action 0x0090 "cset_var_int_to_lvar_float" [shared, own],
   action 0x0091 "cset_var_float_to_lvar_int" [shared, own],
   action 0x0092 "cset_lvar_int_to_lvar_float" [own, own],
   action 0x0093 "cset_lvar_float_to_lvar_int" [own, own],
   action 0x0094 "abs_var_int" [shared],
   action 0x0095 "abs_lvar_int" [own],
   action 0x0096 "abs_var_float" [shared],
   action 0x0097 "abs_lvar_float" [own],
   action 0x0098 "generate_random_float" [outOwn],
   action 0x0099 "generate_random_int" [outOwn]]

end ScriptAudit.Bundled
