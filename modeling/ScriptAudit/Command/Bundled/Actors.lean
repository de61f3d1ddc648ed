import ScriptAudit.Command.Bundled.Shape

/-! People, cars, areas and the state of the player. -/
namespace ScriptAudit.Bundled

def actorCommands : List Command :=
  [action 0x009A "create_char" [int, model, real, real, real, outOwn],
   action 0x009B "delete_char" [any],
   action 0x009F "char_set_idle" [any],
   action 0x00A0 "get_char_coordinates" [any, outOwn, outOwn, outOwn],
   action 0x00A1 "set_char_coordinates" [any, real, real, real],
   condition 0x00A3 "is_char_in_area_2d" [any, real, real, real, real, int],
   condition 0x00A4 "is_char_in_area_3d" [any, real, real, real, real, real, real, int],
   action 0x00A5 "create_car" [model, real, real, real, outOwn],
   action 0x00A6 "delete_car" [any],
   action 0x00A7 "car_goto_coordinates" [any, real, real, real],
   action 0x00A8 "car_wander_randomly" [any],
   action 0x00A9 "car_set_idle" [any],
   action 0x00AA "get_car_coordinates" [any, outOwn, outOwn, outOwn],
   action 0x00AB "set_car_coordinates" [any, real, real, real],
   action 0x00AD "set_car_cruise_speed" [any, real],
   action 0x00AE "set_car_driving_style" [any, int],
   action 0x00AF "set_car_mission" [any, int],
   condition 0x00B0 "is_car_in_area_2d" [any, real, real, real, real, int],
   condition 0x00B1 "is_car_in_area_3d" [any, real, real, real, real, real, real, int],
   action 0x00BA "print_big" [string, int, int],
   action 0x00BB "print" [string, int, int],
   action 0x00BC "print_now" [string, int, int],
   action 0x00BE "clear_prints" [],
   action 0x00BF "get_time_of_day" [outOwn, outOwn],
   action 0x00C0 "set_time_of_day" [int, int],
   action 0x00C1 "get_minutes_to_time_of_day" [int, int, outOwn],
   condition 0x00C2 "is_point_on_screen" [real, real, real, real],
   action 0x00D6 "andor" [int],
   action 0x00D8 "mission_has_finished" [],
   action 0x00D9 "store_car_char_is_in" [any, outOwn],
   action 0x00DA "store_car_player_is_in" [any, outOwn],
   condition 0x00DB "is_char_in_car" [any, any],
   condition 0x00DC "is_player_in_car" [any, any],
   condition 0x00DD "is_char_in_model" [any, model],
   condition 0x00DE "is_player_in_model" [any, model],
   condition 0x00DF "is_char_in_any_car" [any],
   condition 0x00E0 "is_player_in_any_car" [any],
   condition 0x00E1 "is_button_pressed" [int, int],
   action 0x00E2 "get_pad_state" [int, int, outOwn],
   condition 0x00E3 "locate_player_any_means_2d" [any, real, real, real, real, int],
   condition 0x00E4 "locate_player_on_foot_2d" [any, real, real, real, real, int],
   condition 0x00E5 "locate_player_in_car_2d" [any, real, real, real, real, int],
   condition 0x00E6 "locate_stopped_player_any_means_2d" [any, real, real, real, real, int],
   condition 0x00E7 "locate_stopped_player_on_foot_2d" [any, real, real, real, real, int],
   condition 0x00E8 "locate_stopped_player_in_car_2d" [any, real, real, real, real, int],
   condition 0x00E9 "locate_player_any_means_char_2d" [any, any, real, real, int],
   condition 0x00EA "locate_player_on_foot_char_2d" [any, any, real, real, int],
   condition 0x00EB "locate_player_in_car_char_2d" [any, any, real, real, int],
   condition 0x00EC "locate_char_any_means_2d" [any, real, real, real, real, int],
   condition 0x00ED "locate_char_on_foot_2d" [any, real, real, real, real, int],
   condition 0x00EE "locate_char_in_car_2d" [any, real, real, real, real, int],
   condition 0x00EF "locate_stopped_char_any_means_2d" [any, real, real, real, real, int],
   condition 0x00F0 "locate_stopped_char_on_foot_2d" [any, real, real, real, real, int],
   condition 0x00F1 "locate_stopped_char_in_car_2d" [any, real, real, real, real, int],
   condition 0x00F2 "locate_char_any_means_char_2d" [any, any, real, real, int],
   condition 0x00F3 "locate_char_on_foot_char_2d" [any, any, real, real, int],
   condition 0x00F4 "locate_char_in_car_char_2d" [any, any, real, real, int],
   condition 0x00F5 "locate_player_any_means_3d" [any, real, real, real, real, real, real, int],
   condition 0x00F6 "locate_player_on_foot_3d" [any, real, real, real, real, real, real, int],
   condition 0x00F7 "locate_player_in_car_3d" [any, real, real, real, real, real, real, int],
   condition 0x00F8 "locate_stopped_player_any_means_3d" [any, real, real, real, real, real, real,
      int],
   condition 0x00F9 "locate_stopped_player_on_foot_3d" [any, real, real, real, real, real, real,
      int],
   condition 0x00FA "locate_stopped_player_in_car_3d" [any, real, real, real, real, real, real,
      int],
   condition 0x00FB "locate_player_any_means_char_3d" [any, any, real, real, real, int],
   condition 0x00FC "locate_player_on_foot_char_3d" [any, any, real, real, real, int],
   condition 0x00FD "locate_player_in_car_char_3d" [any, any, real, real, real, int],
   condition 0x00FE "locate_char_any_means_3d" [any, real, real, real, real, real, real, int],
   condition 0x00FF "locate_char_on_foot_3d" [any, real, real, real, real, real, real, int]]

end ScriptAudit.Bundled
